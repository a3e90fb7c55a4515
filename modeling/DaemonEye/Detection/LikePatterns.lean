import DaemonEye.Collector.Pushdown
import DaemonEye.Detection.Conformance
import DaemonEye.Lib.Regular
import DaemonEye.Sql.Semantics
import Mathlib.Data.List.Infix

/-!
# The expression a `LIKE` pattern is translated to

Every character of ASCII punctuation is escaped. For the two angles the escape
is not the character: `\<` asserts the start of a word and `\>` its end.
-/

namespace DaemonEye

namespace LikePattern

/-! ## What the translation writes -/

inductive Token
  | anyRun
  | any
  | plain (c : Char)
  | escaped (c : Char)
deriving DecidableEq

def Token.text : Token → List Char
  | anyRun => ['.', '*']
  | any => ['.']
  | plain c => [c]
  | escaped c => ['\\', c]

def Token.Valid : Token → Prop
  | plain c => Str.isAsciiPunctuation c = false
  | escaped c => Str.isAsciiPunctuation c = true
  | _ => True

def token (c : Char) : Token :=
  if c = '%' then .anyRun
  else if c = '_' then .any
  else if Str.isAsciiPunctuation c then .escaped c
  else .plain c

def source (tokens : List Token) : String := "(?s)^" ++ String.ofList (tokens.flatMap Token.text) ++ "$"

theorem token_valid (c : Char) : (token c).Valid := by
  unfold token
  by_cases hrun : c = '%'
  · rw [if_pos hrun]; exact trivial
  · by_cases hany : c = '_'
    · rw [if_neg hrun, if_pos hany]; exact trivial
    · rw [if_neg hrun, if_neg hany]
      cases hpunctuation : Str.isAsciiPunctuation c
      · exact hpunctuation
      · exact hpunctuation

def translate (translated : String) (character : Char) : String :=
  match character with
  | '%' => translated ++ ".*"
  | '_' => translated.push '.'
  | literalCharacter =>
    (if Str.isAsciiPunctuation literalCharacter then translated.push '\\' else translated).push literalCharacter

theorem toList_translate (translated : String) (c : Char) :
    (translate translated c).toList = translated.toList ++ (token c).text := by
  unfold translate token
  split
  · simp [Token.text]
  · simp [Token.text]
  · rename_i hrun hany
    rw [if_neg (fun h => hrun h), if_neg (fun h => hany h)]
    cases hpunctuation : Str.isAsciiPunctuation c <;> simp [Token.text]

theorem toList_foldl_translate (l : List Char) (translated : String) :
    (l.foldl translate translated).toList = translated.toList ++ (l.map token).flatMap Token.text := by
  induction l generalizing translated with
  | nil => simp
  | cons c l ih => rw [List.foldl_cons, ih, toList_translate, List.map_cons, List.flatMap_cons, List.append_assoc]

theorem likeToRegex_eq (pattern : String) : Pushdown.likeToRegex pattern = source (pattern.toList.map token) := by
  refine String.toList_injective ?_
  have hfold : Pushdown.likeToRegex pattern = (pattern.toList.foldl translate "(?s)^").push '$' := rfl
  rw [hfold, String.toList_push, toList_foldl_translate]
  simp [source]

/-! ## What the crate reads -/

section
variable (isWord : Char → Bool)

def wordStart (previous next : Option Char) : Bool := !previous.any isWord && next.any isWord

def wordEnd (previous next : Option Char) : Bool := previous.any isWord && !next.any isWord

def Token.regular : Token → Regular Char
  | anyRun => .star (.char fun _ => true)
  | any => .char fun _ => true
  | plain c => .char fun d => d == c
  | escaped c => if c = '<' then .look (wordStart isWord) else if c = '>' then .look (wordEnd isWord)
    else .char fun d => d == c

def anchored (tokens : List Token) : Regular Char :=
  .cat (.look fun previous _ => previous.isNone)
    (.cat (.sequence (tokens.map (Token.regular isWord))) (.look fun _ next => next.isNone))

/-- The crate's reading of such sources, and which characters it takes for parts of words. -/
structure Reading (isMatch : (source text : String) → Prop) : Prop where
  reads : ∀ (tokens : List Token), (∀ t ∈ tokens, t.Valid) → ∀ text : String,
    isMatch (source tokens) text ↔ (anchored isWord tokens).Search text.toList
  angles : isWord '<' = false ∧ isWord '>' = false ∧ isWord '!' = false

variable {isWord}

theorem search_anchored {tokens : List Token} {text : List Char} :
    (anchored isWord tokens).Search text ↔ (Regular.sequence (tokens.map (Token.regular isWord))).Matches
      [] text [] := by
  constructor
  · rintro ⟨before, piece, after, htext, hmatch⟩
    obtain ⟨x, rest, rfl, hstart, hrest⟩ := Regular.matches_cat.mp hmatch
    obtain ⟨y, z, rfl, hbody, hend⟩ := Regular.matches_cat.mp hrest
    obtain ⟨rfl, hfirst⟩ := Regular.matches_look.mp hstart
    obtain ⟨rfl, hlast⟩ := Regular.matches_look.mp hend
    have hbefore : before = [] := by simpa using hfirst
    have hafter : after = [] := by simpa using hlast
    subst hbefore hafter
    have hbody' : text = y := by simpa using htext
    rw [hbody']
    simpa using hbody
  · intro hbody
    refine ⟨[], text, [], by simp, ?_⟩
    refine Regular.matches_cat.mpr ⟨[], text, rfl, Regular.matches_look.mpr ⟨rfl, rfl⟩, ?_⟩
    refine Regular.matches_cat.mpr ⟨text, [], by simp, by simpa using hbody, Regular.matches_look.mpr ⟨rfl, rfl⟩⟩

/-! ## Patterns without angles -/

theorem regular_literal {c : Char} (hstart : c ≠ '<') (hend : c ≠ '>') (hrun : c ≠ '%') (hany : c ≠ '_') :
    (token c).regular isWord = .char fun d => d == c := by
  unfold token
  rw [if_neg hrun, if_neg hany]
  cases Str.isAsciiPunctuation c
  · rfl
  · simp [Token.regular, hstart, hend]

theorem likeMatches_literal {c : Char} (hrun : c ≠ '%') (hany : c ≠ '_') (pattern text : List Char) :
    likeMatches (c :: pattern) text = true ↔ ∃ rest, text = c :: rest ∧ likeMatches pattern rest = true := by
  cases text with
  | nil => simp [likeMatches]
  | cons d text =>
    rw [likeMatches]
    · simp only [Bool.and_eq_true, decide_eq_true_eq]
      constructor
      · rintro ⟨rfl, hrest⟩
        exact ⟨text, rfl, hrest⟩
      · rintro ⟨rest, htext, hrest⟩
        obtain ⟨rfl, rfl⟩ := List.cons.inj htext
        exact ⟨rfl, hrest⟩
    · exact hrun
    · exact fun h => absurd h hany

theorem sequence_matches {pattern : List Char} (hstart : '<' ∉ pattern) (hend : '>' ∉ pattern) :
    ∀ {before text after : List Char},
      (Regular.sequence ((pattern.map token).map (Token.regular isWord))).Matches before text after ↔
        likeMatches pattern text = true := by
  induction pattern with
  | nil =>
    intro before text after
    simp [Regular.sequence, likeMatches]
  | cons c pattern ih =>
    intro before text after
    have ih := @ih (fun h => hstart (List.mem_cons_of_mem _ h)) (fun h => hend (List.mem_cons_of_mem _ h))
    simp only [List.map_cons, Regular.sequence, Regular.matches_cat, ih]
    by_cases hrun : c = '%'
    · subst hrun
      have hlike : likeMatches ('%' :: pattern) text = text.tails.any fun rest => likeMatches pattern rest := by
        rw [likeMatches]
      rw [hlike, List.any_eq_true]
      constructor
      · rintro ⟨x, y, rfl, -, hrest⟩
        exact ⟨y, (List.mem_tails _ _).mpr (List.suffix_append x y), hrest⟩
      · rintro ⟨y, hy, hrest⟩
        obtain ⟨x, rfl⟩ := (List.mem_tails _ _).mp hy
        exact ⟨x, y, rfl, Regular.matches_star_any fun _ => rfl, hrest⟩
    · by_cases hany : c = '_'
      · subst hany
        cases text with
        | nil => simp [likeMatches, token, Token.regular]
        | cons d text =>
          have hlike : likeMatches ('_' :: pattern) (d :: text) = likeMatches pattern text := by rw [likeMatches]
          have htoken : (token '_').regular isWord = .char fun _ => true := rfl
          rw [hlike, htoken]
          constructor
          · rintro ⟨x, y, htext, hx, hrest⟩
            obtain ⟨e, rfl, -⟩ := Regular.matches_char.mp hx
            obtain ⟨-, rfl⟩ := List.cons.inj htext
            exact hrest
          · exact fun hrest => ⟨[d], text, rfl, .char rfl, hrest⟩
      · rw [regular_literal (fun h => hstart (h ▸ List.mem_cons_self))
          (fun h => hend (h ▸ List.mem_cons_self)) hrun hany, likeMatches_literal hrun hany]
        constructor
        · rintro ⟨x, y, rfl, hx, hrest⟩
          obtain ⟨d, rfl, hd⟩ := Regular.matches_char.mp hx
          exact ⟨y, by simpa using hd, hrest⟩
        · rintro ⟨rest, rfl, hrest⟩
          exact ⟨[c], rest, rfl, .char (by simp), hrest⟩

/-! ## Patterns with an angle -/

/-- A text the pattern matches: nothing for `%`, a mark for `_`. -/
def instanceOf : List Char → List Char
  | [] => []
  | c :: pattern => if c = '%' then instanceOf pattern else if c = '_' then '!' :: instanceOf pattern
    else c :: instanceOf pattern

theorem likeMatches_instanceOf (pattern : List Char) : likeMatches pattern (instanceOf pattern) = true := by
  induction pattern with
  | nil => rfl
  | cons c pattern ih =>
    unfold instanceOf
    by_cases hrun : c = '%'
    · subst hrun
      rw [if_pos rfl, likeMatches, List.any_eq_true]
      exact ⟨instanceOf pattern, (List.mem_tails _ _).mpr (List.suffix_refl _), ih⟩
    · by_cases hany : c = '_'
      · subst hany
        rw [if_neg hrun, if_pos rfl, likeMatches]
        exact ih
      · rw [if_neg hrun, if_neg hany, likeMatches_literal hrun hany]
        exact ⟨_, rfl, ih⟩

theorem mem_of_likeMatches {d : Char} (hrun : d ≠ '%') (hany : d ≠ '_') :
    ∀ {pattern text : List Char}, d ∈ pattern → likeMatches pattern text = true → d ∈ text := by
  intro pattern
  induction pattern with
  | nil => exact fun h => absurd h List.not_mem_nil
  | cons c pattern ih =>
    intro text hd hmatch
    by_cases hcrun : c = '%'
    · subst hcrun
      rw [likeMatches, List.any_eq_true] at hmatch
      obtain ⟨rest, hrest, hmatch⟩ := hmatch
      exact ((List.mem_tails _ _).mp hrest).subset (ih ((List.mem_cons.mp hd).resolve_left hrun) hmatch)
    · by_cases hcany : c = '_'
      · subst hcany
        cases text with
        | nil => simp [likeMatches] at hmatch
        | cons e text =>
          rw [likeMatches] at hmatch
          exact List.mem_cons_of_mem _ (ih ((List.mem_cons.mp hd).resolve_left hany) hmatch)
      · obtain ⟨rest, rfl, hrest⟩ := (likeMatches_literal hcrun hcany pattern text).mp hmatch
        rcases List.mem_cons.mp hd with rfl | hd
        · exact List.mem_cons_self
        · exact List.mem_cons_of_mem _ (ih hd hrest)

def withoutAngles (c : Char) : Char := if c = '<' ∨ c = '>' then '!' else c

theorem isWord_withoutAngles (h : isWord '<' = false ∧ isWord '>' = false ∧ isWord '!' = false) (c : Char) :
    isWord (withoutAngles c) = isWord c := by
  unfold withoutAngles
  by_cases hangle : c = '<' ∨ c = '>'
  · rw [if_pos hangle, h.2.2]
    rcases hangle with rfl | rfl
    · exact h.1.symm
    · exact h.2.1.symm
  · rw [if_neg hangle]

theorem bears_withoutAngles (h : isWord '<' = false ∧ isWord '>' = false ∧ isWord '!' = false) (c : Char) :
    ((token c).regular isWord).Bears withoutAngles := by
  have hword (o : Option Char) : (o.map withoutAngles).any isWord = o.any isWord := by
    cases o with
    | none => rfl
    | some d => exact isWord_withoutAngles h d
  by_cases hstart : c = '<'
  · subst hstart
    intro previous next hlook
    simpa only [wordStart, hword] using hlook
  by_cases hend : c = '>'
  · subst hend
    intro previous next hlook
    simpa only [wordEnd, hword] using hlook
  by_cases hrun : c = '%'
  · subst hrun
    exact fun _ _ => rfl
  by_cases hany : c = '_'
  · subst hany
    exact fun _ _ => rfl
  rw [regular_literal hstart hend hrun hany]
  intro d hd
  have hdc : d = c := by simpa using hd
  rw [hdc, withoutAngles, if_neg (not_or.mpr ⟨hstart, hend⟩)]
  exact beq_self_eq_true c

/-! ## Exactness -/

section
variable {isMatch : (source text : String) → Prop} (hcrate : Reading isWord isMatch)
include hcrate

theorem isMatch_likeToRegex (pattern text : String) :
    isMatch (Pushdown.likeToRegex pattern) text ↔
      (Regular.sequence ((pattern.toList.map token).map (Token.regular isWord))).Matches [] text.toList [] := by
  rw [likeToRegex_eq, hcrate.reads _ (fun t ht => ?_), search_anchored]
  obtain ⟨c, -, rfl⟩ := List.mem_map.mp ht
  exact token_valid c

theorem like_exact_iff (pattern : String) :
    (∀ text, (isMatch (Pushdown.likeToRegex pattern) text ↔ like pattern text = true) ∧
        (isMatch (Conformance.likeToRegex pattern) text ↔ like pattern text = true)) ↔
      '<' ∉ pattern.toList ∧ '>' ∉ pattern.toList := by
  have hcopy : Conformance.likeToRegex pattern = Pushdown.likeToRegex pattern := rfl
  rw [hcopy]
  constructor
  · intro hexact
    have hboth : ∀ d, d = '<' ∨ d = '>' → d ∉ pattern.toList := by
      intro d hd hmem
      have hliteral : d ≠ '%' ∧ d ≠ '_' := by rcases hd with rfl | rfl <;> decide
      -- a text of the pattern and the same text without its angles
      have hplain := (hexact (String.ofList (instanceOf pattern.toList))).1
      rw [isMatch_likeToRegex hcrate, String.toList_ofList] at hplain
      have hmatch := hplain.mpr (by rw [like, String.toList_ofList]; exact likeMatches_instanceOf _)
      have hmapped := hmatch.map (f := withoutAngles) (Regular.bears_sequence.mpr ?_)
      · have hother := (hexact (String.ofList ((instanceOf pattern.toList).map withoutAngles))).1
        rw [isMatch_likeToRegex hcrate, String.toList_ofList] at hother
        have hlike := hother.mp hmapped
        rw [like, String.toList_ofList] at hlike
        obtain ⟨c, -, hc⟩ := List.mem_map.mp (mem_of_likeMatches hliteral.1 hliteral.2 hmem hlike)
        unfold withoutAngles at hc
        split at hc
        · rcases hd with rfl | rfl <;> exact absurd hc (by decide)
        · rename_i hangle
          exact hangle (hc ▸ hd)
      · intro r hr
        obtain ⟨t, ht, rfl⟩ := List.mem_map.mp hr
        obtain ⟨c, -, rfl⟩ := List.mem_map.mp ht
        exact bears_withoutAngles hcrate.angles c
    exact ⟨hboth '<' (.inl rfl), hboth '>' (.inr rfl)⟩
  · rintro ⟨hstart, hend⟩ text
    rw [isMatch_likeToRegex hcrate, sequence_matches hstart hend]
    exact ⟨Iff.rfl, Iff.rfl⟩

end

end

/-! ## The angle itself -/

namespace AngleTag

def isAsciiWord (c : Char) : Bool := c.isAlphanum || c == '_'

def read : List Char → Option (List Token)
  | [] => none
  | ['$'] => some []
  | '.' :: '*' :: rest => (read rest).map (.anyRun :: ·)
  | '.' :: rest => (read rest).map (.any :: ·)
  | '\\' :: c :: rest => (read rest).map (.escaped c :: ·)
  | c :: rest => (read rest).map (.plain c :: ·)

def isMatch (source text : String) : Prop :=
  ∃ tokens, read (source.toList.drop 5) = some tokens ∧ (anchored isAsciiWord tokens).Search text.toList

theorem read_cons {t : Token} {rest : List Char} (ht : t.Valid) (hrest : rest.head? ≠ some '*') :
    read (t.text ++ rest) = (read rest).map (t :: ·) := by
  cases t with
  | anyRun => rfl
  | any =>
    cases rest with
    | nil => rfl
    | cons d rest =>
      rw [Token.text, List.cons_append, List.nil_append, read]
      exact fun _ h => hrest (by simp [h])
  | plain c =>
    have hne : ∀ d, Str.isAsciiPunctuation d = true → c ≠ d := fun d hd h => by
      rw [← h, show Str.isAsciiPunctuation c = false from ht] at hd
      cases hd
    rw [Token.text, List.cons_append, List.nil_append, read]
    · exact fun h => absurd h (hne '$' (by decide))
    · exact fun _ h => absurd h (hne '.' (by decide))
    · exact fun h => absurd h (hne '.' (by decide))
    · exact fun _ _ h => absurd h (hne '\\' (by decide))
  | escaped c => rfl

theorem head_tokens {tokens : List Token} (h : ∀ t ∈ tokens, t.Valid) :
    (tokens.flatMap Token.text ++ ['$']).head? ≠ some '*' := by
  cases tokens with
  | nil => decide
  | cons t tokens =>
    cases t with
    | plain c =>
      intro hc
      have hstar : c = '*' := by simpa [Token.text] using hc
      have hvalid : Str.isAsciiPunctuation c = false := h _ List.mem_cons_self
      rw [hstar] at hvalid
      exact absurd hvalid (by decide)
    | _ => simp [Token.text]

theorem read_tokens {tokens : List Token} (h : ∀ t ∈ tokens, t.Valid) :
    read (tokens.flatMap Token.text ++ ['$']) = some tokens := by
  induction tokens with
  | nil => rfl
  | cons t tokens ih =>
    obtain ⟨ht, hrest⟩ := List.forall_mem_cons.mp h
    rw [List.flatMap_cons, List.append_assoc, read_cons ht (head_tokens hrest), ih hrest]
    rfl

theorem reading : Reading isAsciiWord isMatch := by
  refine ⟨fun tokens hvalid text => ?_, by decide⟩
  have hread : read ((source tokens).toList.drop 5) = some tokens := by
    have hbody : (source tokens).toList.drop 5 = tokens.flatMap Token.text ++ ['$'] := by simp [source]
    rw [hbody, read_tokens hvalid]
  constructor
  · rintro ⟨tokens', hread', hsearch⟩
    rw [hread] at hread'
    cases hread'
    exact hsearch
  · exact fun hsearch => ⟨tokens, hread, hsearch⟩

theorem angle_unmatched :
    Reading isAsciiWord isMatch ∧ like "<" "<" = true ∧ ¬isMatch (Pushdown.likeToRegex "<") "<" := by
  refine ⟨reading, by decide, ?_⟩
  rw [isMatch_likeToRegex reading]
  intro hmatch
  obtain ⟨x, y, htext, hx, hy⟩ := Regular.matches_cat.mp hmatch
  obtain ⟨rfl, -⟩ := Regular.matches_look.mp hx
  rw [Regular.matches_empty.mp hy] at htext
  cases htext

theorem binaries_matched :
    isMatch (Pushdown.likeToRegex "/usr/bin/%") "/usr/bin/sh" ∧
      ¬isMatch (Pushdown.likeToRegex "/usr/bin/%") "/usr/sbin/sh" := by
  have hexact := (like_exact_iff reading "/usr/bin/%").mpr (by decide)
  exact ⟨(hexact "/usr/bin/sh").1.mpr (by decide), mt (hexact "/usr/sbin/sh").1.mp (by decide)⟩

end AngleTag

end LikePattern

end DaemonEye
