import DaemonEye.Agent.CollectorRegistry
import DaemonEye.Lib.Masking
import DaemonEye.Procmond.Connector

/-!
# Secrets on command lines

The arguments of an event and the words of a text are scanned by two loops. Both
hide what follows a sensitive flag that is not hidden itself; only the second
looks for a flag before an equals sign, and only the first knows where one
argument ends and the next begins.
-/

namespace DaemonEye

namespace Security

/-! ## The scanner of texts -/

def splitOnce (token : String) : Option (String × String) :=
  match token.toList.span (· ≠ '=') with
  | (_, []) => none
  | (before, _ :: after) => some (String.ofList before, String.ofList after)

def splitWhitespace (cmd : String) : List String := (wordsOf isWhiteSpace cmd.toList).map String.ofList

def sanitizeTokens : Bool → List String → List String
  | _, [] => []
  | true, _ :: rest => redacted :: sanitizeTokens false rest
  | false, token :: rest =>
    if isSensitiveFlag token then token :: sanitizeTokens true rest
    else
      match splitOnce token with
      | some (flagPart, _) =>
        if isSensitiveFlag flagPart then (flagPart ++ "=[REDACTED]") :: sanitizeTokens false rest
        else token :: sanitizeTokens false rest
      | none => token :: sanitizeTokens false rest

def sanitizeCommandLine (cmd : String) : String := " ".intercalate (sanitizeTokens false (splitWhitespace cmd))

end Security

open Security

/-! ## Secrets -/

/-- Two command lines that differ in what follows a sensitive flag, as the next argument or behind an equals sign. The
first argument is whether both have such a flag directly before. -/
inductive DifferInSecrets : Bool → List String → List String → Prop
  | nil {follows : Bool} : DifferInSecrets follows [] []
  | same {follows : Bool} (argument : String) {rest rest' : List String}
      (h : DifferInSecrets (isSensitiveFlag argument) rest rest') : DifferInSecrets follows (argument :: rest)
        (argument :: rest')
  | next (argument argument' : String) {rest rest' : List String}
      (h : DifferInSecrets (isSensitiveFlag argument && isSensitiveFlag argument') rest rest') :
      DifferInSecrets true (argument :: rest) (argument' :: rest')
  | joined {follows : Bool} (flag value value' : String) (hflag : isSensitiveFlag flag = true)
    {rest rest' : List String} (h : DifferInSecrets false rest rest') :
      DifferInSecrets follows ((flag ++ "=" ++ value) :: rest) ((flag ++ "=" ++ value') :: rest')

def FollowsFlags (arguments : List String) (i : Nat) : Prop := Odd (marksAtEnd isSensitiveFlag (arguments.take i))

/-- Both have the same sensitive flag before their first equals sign. -/
def SameFlag (word word' : String) : Prop :=
  ∃ flag value value', isSensitiveFlag flag = true ∧ word = flag ++ "=" ++ value ∧ word' = flag ++ "=" ++ value'

/-- Words that differ are hidden by the scanner of texts. -/
structure WordsHidden (words words' : List String) : Prop where
  length : words.length = words'.length
  differ : ∀ i word word', words[i]? = some word → words'[i]? = some word' →
    FollowsFlags words i ∨ word = word' ∨ SameFlag word word'

/-- What both scanners make the same text of. -/
def Plain (arguments : List String) : Prop :=
  arguments = [""] ∨ ("" ∉ arguments ∧ ∀ i flag value, isSensitiveFlag flag = true →
    arguments[i]? = some (flag ++ "=" ++ value) → FollowsFlags arguments i ∨ value = redacted)

/-! ## Flags -/

theorem no_equals {flag : String} (h : isSensitiveFlag flag = true) : '=' ∉ flag.toList := by
  intro hmem
  obtain ⟨known, hknown, heq⟩ := List.any_eq_true.mp h
  have hlower : flag.toList.map Char.toLower = known.toList.map Char.toLower := of_decide_eq_true heq
  have hin : '=' ∈ known.toList.map Char.toLower := by
    rw [← hlower]
    exact List.mem_map.mpr ⟨'=', hmem, by decide⟩
  revert hin
  simp only [sensitiveFlags, List.mem_cons, List.not_mem_nil, or_false] at hknown
  rcases hknown with rfl | rfl | rfl | rfl | rfl | rfl | rfl | rfl | rfl <;> decide

theorem not_flag_of_equals {flag value : String} : isSensitiveFlag (flag ++ "=" ++ value) = false := by
  rw [← Bool.not_eq_true]
  intro h
  refine no_equals h ?_
  simp

theorem splitOnce_joined {flag : String} (h : '=' ∉ flag.toList) (value : String) :
    splitOnce (flag ++ "=" ++ value) = some (flag, value) := by
  have hlist : (flag ++ "=" ++ value).toList = flag.toList ++ '=' :: value.toList := by simp
  have hbefore : ∀ ch ∈ flag.toList, decide (ch ≠ '=') = true := fun ch hmem => decide_eq_true fun heq => h (heq ▸ hmem)
  rw [splitOnce, hlist, List.span_eq_takeWhile_dropWhile, List.takeWhile_append_of_pos hbefore,
    List.dropWhile_append_of_pos hbefore,
    List.takeWhile_cons_of_neg (by simp), List.dropWhile_cons_of_neg (by simp), List.append_nil]
  simp

theorem splitOnce_some {token flag value : String} (h : splitOnce token = some (flag, value)) :
    token = flag ++ "=" ++ value := by
  have hparts := @List.takeWhile_append_dropWhile _ (fun ch => decide (ch ≠ '=')) token.toList
  unfold splitOnce at h
  rw [List.span_eq_takeWhile_dropWhile] at h
  cases hafter : token.toList.dropWhile fun ch => decide (ch ≠ '=') with
  | nil =>
    rw [hafter] at h
    cases h
  | cons ch after =>
    have hequals : ch = '=' := by
      have hne : token.toList.dropWhile (fun ch => decide (ch ≠ '=')) ≠ [] := by
        rw [hafter]
        exact List.cons_ne_nil _ _
      have hhead := List.head_dropWhile_not (fun ch => decide (ch ≠ '=')) hne
      simp only [hafter, List.head_cons] at hhead
      simpa using hhead
    rw [hafter] at h hparts
    obtain ⟨rfl, rfl⟩ := Prod.mk.inj (Option.some.inj h)
    refine String.toList_inj.mp (hparts.symm.trans ?_)
    rw [hequals]
    simp

def shown (token : String) : String :=
  match splitOnce token with
  | some (flagPart, _) => if isSensitiveFlag flagPart then flagPart ++ "=[REDACTED]" else token
  | none => token

theorem shown_cases (token : String) : (∃ flag value, isSensitiveFlag flag = true ∧ token = flag ++ "=" ++ value ∧
    shown token = flag ++ "=[REDACTED]") ∨
    ((∀ flag value, isSensitiveFlag flag = true → token ≠ flag ++ "=" ++ value) ∧ shown token = token) := by
  unfold shown
  cases hsplit : splitOnce token with
  | none =>
    refine .inr ⟨fun flag value hflag heq => ?_, rfl⟩
    rw [heq, splitOnce_joined (no_equals hflag)] at hsplit
    cases hsplit
  | some parts =>
    obtain ⟨flagPart, value⟩ := parts
    dsimp only
    split_ifs with hflag
    · exact .inl ⟨flagPart, value, hflag, splitOnce_some hsplit, rfl⟩
    · refine .inr ⟨fun flag value' hflag' heq => ?_, rfl⟩
      rw [heq, splitOnce_joined (no_equals hflag')] at hsplit
      obtain ⟨rfl, -⟩ := Prod.mk.inj (Option.some.inj hsplit)
      exact hflag hflag'

theorem shown_joined {flag : String} (h : isSensitiveFlag flag = true) (value : String) :
    shown (flag ++ "=" ++ value) = flag ++ "=[REDACTED]" := by
  rw [shown, splitOnce_joined (no_equals h)]
  exact if_pos h

theorem redacted_value (flag : String) : flag ++ "=[REDACTED]" = flag ++ "=" ++ redacted := by
  rw [redacted, String.append_assoc]
  rfl

theorem joined_inj {flag flag' value value' : String} (hflag : isSensitiveFlag flag = true)
    (hflag' : isSensitiveFlag flag' = true)
    (h : flag ++ "=" ++ value = flag' ++ "=" ++ value') : flag = flag' ∧ value = value' := by
  have hsplit := congrArg splitOnce h
  rw [splitOnce_joined (no_equals hflag), splitOnce_joined (no_equals hflag'), Option.some.injEq, Prod.mk.injEq]
    at hsplit
  exact hsplit

theorem shown_eq_iff {word word' : String} : shown word = shown word' ↔ word = word' ∨ SameFlag word word' := by
  constructor
  · intro h
    rcases shown_cases word with ⟨flag, value, hflag, rfl, hprint⟩ | ⟨hplain, hprint⟩
    · rcases shown_cases word' with ⟨flag', value', hflag', rfl, hprint'⟩ | ⟨hplain', hprint'⟩
      · rw [hprint, hprint', redacted_value, redacted_value] at h
        obtain ⟨rfl, -⟩ := joined_inj hflag hflag' h
        exact .inr ⟨flag, value, value', hflag, rfl, rfl⟩
      · rw [hprint, hprint', redacted_value] at h
        exact absurd h.symm (hplain' flag redacted hflag)
    · rcases shown_cases word' with ⟨flag', value', hflag', rfl, hprint'⟩ | ⟨hplain', hprint'⟩
      · rw [hprint, hprint', redacted_value] at h
        exact absurd h (hplain flag' redacted hflag')
      · rw [hprint, hprint'] at h
        exact .inl h
  · rintro (rfl | ⟨flag, value, value', hflag, rfl, rfl⟩)
    · rfl
    · rw [shown_joined hflag, shown_joined hflag]

theorem flag_of_shown {word word' : String} (h : shown word = shown word') :
    isSensitiveFlag word = isSensitiveFlag word' := by
  rcases shown_eq_iff.mp h with rfl | ⟨flag, value, value', -, rfl, rfl⟩
  · rfl
  · rw [not_flag_of_equals, not_flag_of_equals]

/-! ## The scanners -/

theorem sanitizeArguments_eq (state : Bool) (arguments : List String) :
    Delivery.sanitizeArguments state arguments = masked isSensitiveFlag id redacted state arguments := by
  induction arguments generalizing state with
  | nil => cases state <;> rfl
  | cons argument rest ih =>
    cases state with
    | true => exact congrArg (redacted :: ·) (ih false)
    | false => exact congrArg (argument :: ·) (ih _)

theorem sanitizeTokens_eq (state : Bool) (tokens : List String) :
    sanitizeTokens state tokens = masked isSensitiveFlag shown redacted state tokens := by
  induction tokens generalizing state with
  | nil => cases state <;> rfl
  | cons token rest ih =>
    cases state with
    | true => exact congrArg (redacted :: ·) (ih false)
    | false =>
      rw [sanitizeTokens, masked]
      by_cases hflag : isSensitiveFlag token = true
      · have hprint : shown token = token := by
          rcases shown_cases token with ⟨flag, value, -, rfl, -⟩ | ⟨-, hprint⟩
          · rw [not_flag_of_equals] at hflag
            cases hflag
          · exact hprint
        rw [if_pos hflag, hprint, hflag, ih]
      · rw [if_neg hflag, Bool.eq_false_iff.mpr hflag, ← ih]
        unfold shown
        cases splitOnce token with
        | none => rfl
        | some parts =>
          dsimp only
          split_ifs <;> rfl

/-! ## Words -/

def Word (word : String) : Prop := word ≠ "" ∧ ∀ ch ∈ word.toList, isWhiteSpace ch = false

theorem word_of_mem {cmd word : String} (h : word ∈ splitWhitespace cmd) : Word word := by
  obtain ⟨letters, hmem, rfl⟩ := List.mem_map.mp h
  obtain ⟨hne, hblank⟩ := mem_wordsOf hmem
  refine ⟨fun heq => hne ?_, fun ch hch => hblank ch (by rwa [String.toList_ofList] at hch)⟩
  rw [← String.toList_ofList (l := letters), heq]
  rfl

theorem splitWhitespace_joined {pieces : List String}
    (h : ∀ piece ∈ pieces, ∀ ch ∈ piece.toList, isWhiteSpace ch = false) :
    splitWhitespace (" ".intercalate pieces) = pieces.filter fun piece => piece ≠ "" := by
  have hletters : ∀ letters ∈ pieces.map String.toList, ∀ ch ∈ letters, isWhiteSpace ch = false := by
    intro letters hmem
    obtain ⟨piece, hpiece, rfl⟩ := List.mem_map.mp hmem
    exact h piece hpiece
  have hlist : (" ".intercalate pieces).toList = [' '].intercalate (pieces.map String.toList) :=
    String.toList_intercalate
  rw [splitWhitespace, hlist, wordsOf_joined (by decide) hletters, List.filter_map, List.map_map,
    List.map_congr_left fun piece _ => show (String.ofList ∘ String.toList) piece =
      id piece from String.ofList_toList, List.map_id]
  refine List.filter_congr fun piece _ => ?_
  rw [Function.comp_apply, Bool.eq_iff_iff]
  simp

theorem joined_words {tokens tokens' : List String} (h : ∀ token ∈ tokens, Word token)
    (h' : ∀ token ∈ tokens', Word token) :
    " ".intercalate tokens = " ".intercalate tokens' ↔ tokens = tokens' := by
  refine ⟨fun heq => ?_, fun heq => heq ▸ rfl⟩
  have hwords := congrArg splitWhitespace heq
  rw [splitWhitespace_joined fun token hmem => (h token hmem).2,
    splitWhitespace_joined fun token hmem => (h' token hmem).2,
    List.filter_eq_self.mpr fun token hmem => decide_eq_true (h token hmem).1,
    List.filter_eq_self.mpr fun token hmem => decide_eq_true (h' token hmem).1] at hwords
  exact hwords

theorem word_redacted : Word redacted := by
  have hall : redacted.toList.all (fun ch => !isWhiteSpace ch) = true := by decide +kernel
  exact ⟨by decide, by simpa using hall⟩

theorem shown_word {token : String} (h : Word token) : Word (shown token) := by
  rcases shown_cases token with ⟨flag, value, -, rfl, hprint⟩ | ⟨-, hprint⟩
  · rw [hprint, redacted_value]
    refine ⟨fun heq => ?_, fun ch hmem => ?_⟩
    · have hempty := congrArg String.toList heq
      simp at hempty
    · rw [String.toList_append, List.mem_append] at hmem
      rcases hmem with hflag | hvalue
      · exact h.2 ch (by rw [String.toList_append, List.mem_append]; exact .inl hflag)
      · exact word_redacted.2 ch hvalue
  · rw [hprint]
    exact h

theorem tokens_words {state : Bool} {tokens : List String} (h : ∀ token ∈ tokens, Word token) :
    ∀ token ∈ sanitizeTokens state tokens, Word token := by
  intro token hmem
  rw [sanitizeTokens_eq] at hmem
  rcases mem_masked hmem with rfl | ⟨token', hmem', rfl⟩
  · exact word_redacted
  · exact shown_word (h token' hmem')

/-! ## Two command lines -/

theorem sanitizeCommandLine_eq_iff (cmd cmd' : String) :
    sanitizeCommandLine cmd = sanitizeCommandLine cmd' ↔ WordsHidden (splitWhitespace cmd) (splitWhitespace cmd') := by
  have hscan := @masked_eq_iff _ _ isSensitiveFlag shown redacted (fun _ _ => flag_of_shown) [] [] rfl
    (splitWhitespace cmd) (splitWhitespace cmd')
  unfold sanitizeCommandLine
  rw [joined_words (tokens_words fun _ => word_of_mem) (tokens_words fun _ => word_of_mem), sanitizeTokens_eq,
    sanitizeTokens_eq]
  refine hscan.trans ⟨fun ⟨hlength, hall⟩ => ⟨hlength, fun i word word' hword hword' => ?_⟩,
    fun h => ⟨h.length, fun i word word' hword hword' => ?_⟩⟩
  · exact (hall i word word' hword hword').imp hides_iff.mp shown_eq_iff.mp
  · exact (h.differ i word word' hword hword').imp hides_iff.mpr shown_eq_iff.mpr

theorem DifferInSecrets.length {follows : Bool} {arguments arguments' : List String}
    (h : DifferInSecrets follows arguments arguments') :
    arguments.length = arguments'.length := by
  induction h with
  | nil => rfl
  | same _ _ ih => exact congrArg (· + 1) ih
  | next _ _ _ ih => exact congrArg (· + 1) ih
  | joined _ _ _ _ _ ih => exact congrArg (· + 1) ih

theorem sanitizeArguments_eq_iff {arguments arguments' : List String} (hlength : arguments.length = arguments'.length) :
    Delivery.sanitizeArguments false arguments = Delivery.sanitizeArguments false arguments' ↔
      ∀ i, arguments[i]? ≠ arguments'[i]? → FollowsFlags arguments i := by
  have hscan := @masked_eq_iff _ _ isSensitiveFlag id redacted (fun _ _ h => congrArg isSensitiveFlag h) []
    [] rfl arguments arguments'
  rw [sanitizeArguments_eq, sanitizeArguments_eq]
  refine hscan.trans ⟨fun ⟨_, hall⟩ i hne => ?_, fun h => ⟨hlength, fun i x x' hx hx' => ?_⟩⟩
  · cases hx : arguments[i]? with
    | none =>
      rw [hx, List.getElem?_eq_none (hlength ▸ List.getElem?_eq_none_iff.mp hx)] at hne
      exact absurd rfl hne
    | some x =>
      have hi : i < arguments'.length := hlength ▸ (List.getElem?_eq_some_iff.mp hx).1
      have hx' := List.getElem?_eq_getElem hi
      rw [hx, hx'] at hne
      rcases hall i x _ hx hx' with hhides | heq
      · exact hides_iff.mp hhides
      · exact absurd (congrArg some heq) hne
  · by_cases heq : x = x'
    · exact .inr heq
    · exact .inl (hides_iff.mpr (h i (by rw [hx, hx']; simpa using heq)))

/-! ## The two scanners -/

theorem eq_shown_iff {token : String} :
    token = shown token ↔ ∀ flag value, isSensitiveFlag flag = true → token = flag ++ "=" ++ value →
      value = redacted := by
  rcases shown_cases token with ⟨flag, value, hflag, rfl, hprint⟩ | ⟨hplain, hprint⟩
  · rw [hprint, redacted_value]
    constructor
    · intro heq flag' value' hflag' heq'
      exact (joined_inj hflag' hflag (heq'.symm.trans heq)).2
    · intro h
      rw [h flag value hflag rfl]
  · exact iff_of_true hprint.symm fun flag value hflag heq => absurd heq (hplain flag value hflag)

theorem mem_sanitizeArguments {state : Bool} {arguments : List String} {argument : String}
    (h : argument ∈ Delivery.sanitizeArguments state arguments) : argument = redacted ∨ argument ∈ arguments := by
  rw [sanitizeArguments_eq] at h
  refine (mem_masked h).imp id ?_
  rintro ⟨argument', hmem, heq⟩
  rw [heq]
  exact hmem

theorem splitOnP_text {pieces : List String} (hne : pieces ≠ [])
    (h : ∀ piece ∈ pieces, ∀ ch ∈ piece.toList, isWhiteSpace ch = false) :
    (" ".intercalate pieces).toList.splitOnP isWhiteSpace = pieces.map String.toList := by
  have hlist : (" ".intercalate pieces).toList = [' '].intercalate (pieces.map String.toList) :=
    String.toList_intercalate
  rw [hlist]
  refine splitOnP_joined (by decide) (by simpa using hne) fun letters hmem => ?_
  obtain ⟨piece, hpiece, rfl⟩ := List.mem_map.mp hmem
  exact h piece hpiece

section
variable {arguments : List String} (hblank : ∀ argument ∈ arguments, ∀ ch ∈ argument.toList, isWhiteSpace ch = false)
include hblank

theorem agree_of_words (hempty : "" ∉ arguments) :
    " ".intercalate (Delivery.sanitizeArguments false arguments) = sanitizeCommandLine (" ".intercalate arguments) ↔
      ∀ i flag value, isSensitiveFlag flag = true → arguments[i]? = some (flag ++ "=" ++ value) →
        FollowsFlags arguments i ∨ value = redacted := by
  have hwords : ∀ argument ∈ arguments, Word argument := by
    intro argument hmem
    exact ⟨fun heq => hempty (heq ▸ hmem), hblank argument hmem⟩
  have hsplit : splitWhitespace (" ".intercalate arguments) = arguments := by
    rw [splitWhitespace_joined hblank]
    exact List.filter_eq_self.mpr fun argument hmem => decide_eq_true (hwords argument hmem).1
  have harguments : ∀ argument ∈ Delivery.sanitizeArguments false arguments, Word argument := by
    intro argument hmem
    rcases mem_sanitizeArguments hmem with rfl | hmem
    · exact word_redacted
    · exact hwords argument hmem
  have hscan := @masked_print_iff _ _ isSensitiveFlag id redacted shown [] arguments
  rw [sanitizeCommandLine, hsplit, joined_words harguments (tokens_words hwords), sanitizeArguments_eq,
    sanitizeTokens_eq]
  refine hscan.trans ⟨fun hall i flag value hflag hget => ?_, fun hall i argument hget => ?_⟩
  · exact (hall i _ hget).imp hides_iff.mp fun heq => eq_shown_iff.mp heq flag value hflag rfl
  · by_cases hfollows : FollowsFlags arguments i
    · exact .inl (hides_iff.mpr hfollows)
    · refine .inr (eq_shown_iff.mpr fun flag value hflag heq => ?_)
      exact (hall i flag value hflag (heq ▸ hget)).resolve_left hfollows

theorem agree_with_empty (hempty : "" ∈ arguments) :
    " ".intercalate (Delivery.sanitizeArguments false arguments) = sanitizeCommandLine (" ".intercalate arguments) ↔
      arguments = [""] := by
  constructor
  · intro heq
    have hne : Delivery.sanitizeArguments false arguments ≠ [] := by
      intro hnil
      have hlength := @length_masked _ _ isSensitiveFlag id redacted false arguments
      rw [← sanitizeArguments_eq, hnil] at hlength
      rw [List.length_eq_zero_iff.mp hlength.symm] at hempty
      cases hempty
    have hleft := splitOnP_text hne fun argument hmem => by
      rcases mem_sanitizeArguments hmem with rfl | hmem
      · exact word_redacted.2
      · exact hblank argument hmem
    rw [heq, sanitizeCommandLine, splitWhitespace_joined hblank] at hleft
    have hcount := congrArg List.length hleft
    rw [List.length_map, sanitizeArguments_eq, length_masked] at hcount
    by_cases hnone : (arguments.filter fun argument => argument ≠ "") = []
    · rw [hnone] at hcount
      obtain ⟨only, rfl⟩ := List.length_eq_one_iff.mp hcount.symm
      rw [List.mem_singleton.mp hempty]
    · have hwords : ∀ token ∈ arguments.filter (fun argument => argument ≠ ""), Word token := by
        intro token hmem
        obtain ⟨hmem, hnonempty⟩ := List.mem_filter.mp hmem
        exact ⟨of_decide_eq_true hnonempty, hblank token hmem⟩
      have htokens : sanitizeTokens false (arguments.filter fun argument => argument ≠ "") ≠ [] := by
        rw [sanitizeTokens_eq, ← List.length_pos_iff, length_masked]
        exact List.length_pos_iff.mpr hnone
      rw [splitOnP_text htokens fun token hmem => (tokens_words hwords token hmem).2, List.length_map,
        sanitizeTokens_eq, length_masked] at hcount
      have hfewer := (@List.length_filter_lt_length_iff_exists _
        (fun argument => decide (argument ≠ "")) arguments).mpr ⟨"", hempty, by simp⟩
      exact absurd hcount (Nat.ne_of_lt hfewer)
  · rintro rfl
    decide +kernel

theorem agree_iff : " ".intercalate (Delivery.sanitizeArguments false arguments) = sanitizeCommandLine
    (" ".intercalate arguments) ↔ Plain arguments := by
  by_cases hempty : "" ∈ arguments
  · rw [agree_with_empty hblank hempty]
    exact ⟨.inl, fun h => h.resolve_right fun h => h.1 hempty⟩
  · rw [agree_of_words hblank hempty]
    refine ⟨fun h => .inr ⟨hempty, h⟩, fun h => (h.resolve_left ?_).2⟩
    rintro rfl
    exact hempty List.mem_cons_self

end

/-- Two events that differ in secrets come out alike if what differs follows an odd number of flags; for the texts it
is the words that have to; and the two agree on plain arguments. -/
theorem secrets_hidden_iff (event : ProcessEvent) (commandLine : List String)
    (h : DifferInSecrets false event.commandLine commandLine) :
    (Delivery.sanitizeEvent event = Delivery.sanitizeEvent { event with commandLine } ↔
      ∀ i, event.commandLine[i]? ≠ commandLine[i]? → FollowsFlags event.commandLine i) ∧
    (sanitizeCommandLine (" ".intercalate event.commandLine) = sanitizeCommandLine (" ".intercalate commandLine) ↔
      WordsHidden (splitWhitespace (" ".intercalate event.commandLine))
        (splitWhitespace (" ".intercalate commandLine))) ∧
    ((∀ argument ∈ event.commandLine, ∀ ch ∈ argument.toList, isWhiteSpace ch = false) →
      (" ".intercalate (Delivery.sanitizeEvent event).commandLine = sanitizeCommandLine
        (" ".intercalate event.commandLine) ↔ Plain event.commandLine)) := by
  refine ⟨?_, sanitizeCommandLine_eq_iff _ _, fun hblank => agree_iff hblank⟩
  rw [← sanitizeArguments_eq_iff h.length]
  constructor
  · intro heq
    exact congrArg ProcessEvent.commandLine heq
  · intro heq
    show ({ event with commandLine := _, executablePath := _ } : ProcessEvent) =
      { event with commandLine := _, executablePath := _ }
    rw [heq]

namespace Psql

def psql (commandLine : List String) : ProcessEvent where
  pid := 42
  ppid := none
  name := "psql"
  executablePath := some "/usr/bin/psql"
  commandLine := commandLine
  startTime := none
  cpuUsage := none
  memoryUsage := none
  executableHash := none
  hashAlgorithm := none
  userId := none
  accessible := true
  fileExists := true
  timestamp := 0
  platformMetadata := none

theorem secrets_hidden_iff_psql :
    (Delivery.sanitizeEvent (psql ["psql", "--password", "first"]) = Delivery.sanitizeEvent
      (psql ["psql", "--password", "second"]) ↔
      ∀ i, ["psql", "--password", "first"][i]? ≠ ["psql", "--password", "second"][i]? →
        FollowsFlags ["psql", "--password", "first"] i) ∧
    (sanitizeCommandLine (" ".intercalate ["psql", "--password", "first"]) =
        sanitizeCommandLine (" ".intercalate ["psql", "--password", "second"]) ↔
      WordsHidden (splitWhitespace (" ".intercalate ["psql", "--password", "first"]))
        (splitWhitespace (" ".intercalate ["psql", "--password", "second"]))) ∧
    ((∀ argument ∈ ["psql", "--password", "first"], ∀ ch ∈ argument.toList, isWhiteSpace ch = false) →
      (" ".intercalate (Delivery.sanitizeEvent (psql ["psql", "--password", "first"])).commandLine =
          sanitizeCommandLine (" ".intercalate ["psql", "--password", "first"]) ↔
        Plain ["psql", "--password", "first"])) :=
  secrets_hidden_iff (psql ["psql", "--password", "first"]) ["psql", "--password", "second"]
    (.same "psql" (.same "--password" (.next "first" "second" .nil)))

theorem joined_secret : DifferInSecrets false ["psql", "--password=first"] ["psql", "--password=second"] :=
  .same "psql" (.joined "--password" "first" "second" (by decide +kernel) .nil)

/-- A password behind an equals sign stays in the event, one of two words in the text, and one after two flags in
both. -/
theorem secrets_shown :
    (¬ ∀ (event : ProcessEvent) (commandLine : List String), DifferInSecrets false event.commandLine commandLine →
      Delivery.sanitizeEvent event = Delivery.sanitizeEvent { event with commandLine }) ∧
    (Delivery.sanitizeEvent (psql ["psql", "--password=first"])).commandLine = ["psql", "--password=first"] ∧
    sanitizeCommandLine "psql --password=first" = "psql --password=[REDACTED]" ∧
    sanitizeCommandLine (" ".intercalate ["psql", "--password", "my secret"]) = "psql --password [REDACTED] secret" ∧
    (Delivery.sanitizeEvent (psql ["psql", "-p", "--token", "first"])).commandLine =
      ["psql", "-p", "[REDACTED]", "first"] := by
  refine ⟨fun hall => ?_, by decide +kernel, by decide +kernel, by decide +kernel, by decide +kernel⟩
  have h := hall (psql ["psql", "--password=first"]) _ joined_secret
  exact absurd (congrArg ProcessEvent.commandLine h) (by decide +kernel)

end Psql

end DaemonEye
