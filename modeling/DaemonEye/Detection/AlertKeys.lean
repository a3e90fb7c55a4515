import Std.Data.String.ToNat
import Mathlib.Tactic.IntervalCases
import DaemonEye.Agent.Alerting
import DaemonEye.Agent.DetectionCycle
import DaemonEye.Detection.Rejection
import DaemonEye.Lib.Escape

/-!
# Keys of alerts

An alert's deduplication key puts the severity, the rule's id and the title
together, and the title the rule's name, the process's name and its pid. The
process's name comes with its control characters spelled out; the rule's id and
name come as they are, and so does a backslash.
-/

namespace DaemonEye

inductive AlertSeverity
  | low
  | medium
  | high
  | critical
deriving DecidableEq

def AlertSeverity.text : AlertSeverity → String
  | .low => "low"
  | .medium => "medium"
  | .high => "high"
  | .critical => "critical"

structure NamedRule extends DetectionRule where
  name : String
  severity : AlertSeverity
deriving DecidableEq

structure Hit where
  pid : UInt32
  name : String
deriving DecidableEq

structure RuleAlert extends Alert where
  severity : AlertSeverity
  title : String
  description : String
  detectionRuleId : String
  process : Hit
  completeness : Execution.Completeness

def RuleAlert.new (severity : AlertSeverity) (title description detectionRuleId : String) (process : Hit)
    (completeness : Execution.Completeness) : RuleAlert where
  deduplicationKey := severity.text ++ ":" ++ detectionRuleId ++ ":" ++ title
  severity := severity
  title := title
  description := description
  detectionRuleId := detectionRuleId
  process := process
  completeness := completeness

/-- `char::is_control`: U+0000 to U+001F and U+007F to U+009F. -/
def isControl (c : Char) : Bool := c.toNat < 32 || (127 ≤ c.toNat && c.toNat < 160)

/-- `char::escape_default`. -/
def escapeDefault (c : Char) : List Char :=
  if c.toNat = 9 then ['\\', 't']
  else if c.toNat = 13 then ['\\', 'r']
  else if c.toNat = 10 then ['\\', 'n']
  else if c.toNat = 39 ∨ c.toNat = 34 ∨ c.toNat = 92 then ['\\', c]
  else if 32 ≤ c.toNat ∧ c.toNat ≤ 126 then [c]
  else ['\\', 'u', '\x7b'] ++ Nat.toDigits 16 c.toNat ++ ['\x7d']

def printable (text : String) : String :=
  String.ofList (text.toList.flatMap fun c => if isControl c then escapeDefault c else [c])

def alertFor (rule : NamedRule) (hit : Hit) (completeness : Execution.Completeness) : RuleAlert :=
  let pid := toString hit.pid.toNat
  let name := printable hit.name
  .new rule.severity (rule.name ++ ": " ++ name ++ " (pid " ++ pid ++ ")")
    ("Process " ++ name ++ " (pid " ++ pid ++ ") matched rule " ++ rule.name) rule.id hit completeness

/-! ## Control characters -/

/-- The escapes of `printable`: a backslash, and what stands for the control character. -/
def controls : Escape Char where
  special := isControl
  lead := '\\'
  tail c := (escapeDefault c).tail

theorem control_cases {c : Char} (h : isControl c = true) : c.toNat < 160 := by
  simp only [isControl, Bool.or_eq_true, decide_eq_true_eq, Bool.and_eq_true] at h
  omega

/-- The number that a letter of an escape stands for. -/
def escapeDigit (c : Char) : Nat := if c.toNat < 58 then c.toNat - 48 else c.toNat - 87

theorem toDigits_control : ∀ n < 160, (Nat.toDigits 16 n).foldl (fun total c => 16 * total + escapeDigit c) 0 = n ∧
    ∀ c ∈ Nat.toDigits 16 n, isControl c = false ∧ c ≠ '\\' ∧ c ≠ '\x7d' := by
  have hdigits : ∀ high < 10, ∀ low < 16,
      (Nat.toDigits 16 (16 * high + low)).foldl (fun total c => 16 * total + escapeDigit c) 0 = 16 * high + low ∧
        (Nat.toDigits 16 (16 * high + low)).all (fun c => !isControl c && c != '\\' && c != '\x7d') = true := by
    decide +kernel
  intro n hn
  have h := hdigits (n / 16) (by omega) (n % 16) (by omega)
  rw [Nat.div_add_mod] at h
  exact ⟨h.1, by simpa [and_assoc] using h.2⟩

theorem escapeDefault_control {c : Char} (h : isControl c = true) :
    escapeDefault c = ['\\', 't'] ∧ c.toNat = 9 ∨ escapeDefault c = ['\\', 'r'] ∧ c.toNat = 13 ∨
      escapeDefault c = ['\\', 'n'] ∧ c.toNat = 10 ∨
      escapeDefault c = '\\' :: 'u' :: '\x7b' :: (Nat.toDigits 16 c.toNat ++ ['\x7d']) := by
  have hbounds : c.toNat < 32 ∨ 127 ≤ c.toNat ∧ c.toNat < 160 := by simpa [isControl] using h
  unfold escapeDefault
  split_ifs with htab hreturn hnewline hquote hplain
  · exact .inl ⟨rfl, htab⟩
  · exact .inr (.inl ⟨rfl, hreturn⟩)
  · exact .inr (.inr (.inl ⟨rfl, hnewline⟩))
  · omega
  · omega
  · exact .inr (.inr (.inr (by simp)))

theorem controls_spelling (c : Char) : controls.spelling c = if isControl c then escapeDefault c else [c] := by
  change (if isControl c = true then '\\' :: (escapeDefault c).tail else [c]) = _
  by_cases h : isControl c = true
  · rw [if_pos h, if_pos h]
    obtain ⟨hc, -⟩ | ⟨hc, -⟩ | ⟨hc, -⟩ | hc := escapeDefault_control h <;> rw [hc] <;> rfl
  · rw [if_neg h, if_neg h]

theorem toList_printable (text : String) : (printable text).toList = controls.spell text.toList := by
  rw [printable, String.toList_ofList, Escape.spell]
  congr 1
  funext c
  exact (controls_spelling c).symm

theorem controls_lawful : controls.Lawful where
  lead := by decide
  plain := by
    intro c hc d hd
    have hd : d ∈ (escapeDefault c).tail := hd
    obtain ⟨hspelled, -⟩ | ⟨hspelled, -⟩ | ⟨hspelled, -⟩ | hspelled := escapeDefault_control hc
    · rw [hspelled] at hd
      obtain rfl := List.mem_singleton.mp hd
      decide
    · rw [hspelled] at hd
      obtain rfl := List.mem_singleton.mp hd
      decide
    · rw [hspelled] at hd
      obtain rfl := List.mem_singleton.mp hd
      decide
    · rw [hspelled] at hd
      simp only [List.tail_cons, List.mem_cons, List.mem_append, List.not_mem_nil, or_false] at hd
      obtain rfl | rfl | hd | rfl := hd
      · decide
      · decide
      · obtain ⟨hplain, hlead, -⟩ := (toDigits_control c.toNat (control_cases hc)).2 d hd
        exact ⟨hplain, hlead⟩
      · decide
  delimits := by
    have hhex : Delimits fun c : { c // isControl c = true } => Nat.toDigits 16 c.1.toNat ++ ['\x7d'] := by
      refine delimits_until (fun a b heq => ?_) fun a hmem => ?_
      · have hsame := congrArg (fun l => l.foldl (fun total c => 16 * total + escapeDigit c) 0) heq
        rw [(toDigits_control _ (control_cases a.2)).1, (toDigits_control _ (control_cases b.2)).1] at hsame
        exact Subtype.ext (Char.toNat_inj.mp hsame)
      · exact ((toDigits_control _ (control_cases a.2)).2 _ hmem).2.2 rfl
    intro a b r t heq
    change (escapeDefault a.1).tail ++ r = (escapeDefault b.1).tail ++ t at heq
    obtain ⟨ha, na⟩ | ⟨ha, na⟩ | ⟨ha, na⟩ | ha := escapeDefault_control a.2 <;>
      obtain ⟨hb, nb⟩ | ⟨hb, nb⟩ | ⟨hb, nb⟩ | hb := escapeDefault_control b.2 <;>
      rw [ha, hb] at heq <;> simp only [List.tail_cons, List.cons_append, List.nil_append, List.cons.injEq] at heq
    all_goals first
      | exact absurd heq.1 (by decide)
      | exact ⟨Subtype.ext (Char.toNat_inj.mp (na.trans nb.symm)), heq.2⟩
      | exact hhex a b r t heq.2.2

/-! ## Keys -/

def NamedRule.label (rule : NamedRule) : List Char := rule.id.toList ++ ':' :: rule.name.toList ++ [':', ' ']

theorem toList_key (rule : NamedRule) (hit : Hit) (completeness : Execution.Completeness) :
    (alertFor rule hit completeness).deduplicationKey.toList =
      rule.severity.text.toList ++ ':' :: (rule.label ++ controls.spell hit.name.toList ++ [' ', '(', 'p', 'i', 'd'] ++
        ' ' :: (Nat.toDigits 10 hit.pid.toNat ++ [')'])) := by
  have hdigits : (toString hit.pid.toNat).toList = Nat.toDigits 10 hit.pid.toNat := Nat.toList_repr
  simp only [alertFor, RuleAlert.new, String.toList_append, toList_printable, hdigits, NamedRule.label]
  simp

theorem delimits_severity : Delimits fun severity : AlertSeverity => severity.text.toList ++ [':'] := by
  refine delimits_until (fun a b heq => ?_) fun a => ?_
  · cases a <;> cases b <;> simp_all [AlertSeverity.text]
  · cases a <;> decide

theorem pid_eq {l m : List Char} {pid pid' : UInt32}
    (h : l ++ ' ' :: (Nat.toDigits 10 pid.toNat ++ [')']) = m ++ ' ' :: (Nat.toDigits 10 pid'.toNat ++ [')'])) :
    l = m ∧ pid = pid' := by
  have hplain : ∀ n : Nat, ' ' ∉ (Nat.toDigits 10 n ++ [')']).reverse := by
    intro n hmem
    obtain hmem | hmem := List.mem_append.mp (List.mem_reverse.mp hmem)
    · exact absurd (Nat.isDigit_of_mem_toDigits (by decide) (by decide) hmem) (by decide)
    · exact absurd (List.mem_singleton.mp hmem) (by decide)
  have hinjective : Function.Injective fun n : Nat => (Nat.toDigits 10 n ++ [')']).reverse := by
    intro a b heq
    have hdigits : Nat.toDigits 10 a = Nat.toDigits 10 b := by simpa using heq
    refine Nat.repr_injective (String.toList_injective ?_)
    rwa [Nat.toList_repr, Nat.toList_repr]
  have hreversed := congrArg List.reverse h
  rw [List.reverse_append, List.reverse_append, List.reverse_cons, List.reverse_cons] at hreversed
  obtain ⟨hpid, hrest⟩ := delimits_until hinjective hplain _ _ _ _ hreversed
  exact ⟨List.reverse_injective hrest, UInt32.toNat_inj.mp hpid⟩

/-- The longer label goes on with a text that, with the other process's name, may be taken for the name of the process
of the shorter. -/
def Overlap (rule : NamedRule) (hit : Hit) (rule' : NamedRule) (hit' : Hit) : Prop :=
  ∃ x : List Char, (∀ c ∈ x, isControl c = false) ∧ rule'.label = rule.label ++ x ∧
    controls.Alike hit.name.toList (x ++ hit'.name.toList)

theorem overlap_iff {rule rule' : NamedRule} {hit hit' : Hit} :
    Overlap rule hit rule' hit' ↔
      ∃ x, rule'.label = rule.label ++ x ∧ controls.spell hit.name.toList = x ++ controls.spell hit'.name.toList := by
  constructor
  · rintro ⟨x, hplain, hlabel, halike⟩
    have hx : controls.spell x = x := Escape.spell_plain hplain
    refine ⟨x, hlabel, ?_⟩
    rw [halike.spell_eq controls_lawful, Escape.spell_append, hx]
  · rintro ⟨x, hlabel, hspelled⟩
    have hplain : ∀ c ∈ x, isControl c = false := fun c hc =>
      controls_lawful.not_special (hspelled ▸ List.mem_append_left _ hc)
    have hx : controls.spell x = x := Escape.spell_plain hplain
    refine ⟨x, hplain, hlabel, Escape.alike_of_spell_eq controls_lawful ?_⟩
    rw [hspelled, Escape.spell_append, hx]

theorem key_eq_iff {rule rule' : NamedRule} {hit hit' : Hit} {completeness completeness' : Execution.Completeness} :
    (alertFor rule hit completeness).deduplicationKey = (alertFor rule' hit' completeness').deduplicationKey ↔
      rule.severity = rule'.severity ∧ hit.pid = hit'.pid ∧
        (Overlap rule hit rule' hit' ∨ Overlap rule' hit' rule hit) := by
  rw [← String.toList_inj, toList_key, toList_key, overlap_iff, overlap_iff]
  constructor
  · intro h
    rw [List.append_cons, List.append_cons _ _ (rule'.label ++ _ ++ _ ++ _)] at h
    obtain ⟨hseverity, hrest⟩ := delimits_severity _ _ _ _ h
    obtain ⟨hnamed, hpid⟩ := pid_eq hrest
    have hlabels := List.append_cancel_right hnamed
    refine ⟨hseverity, hpid, ?_⟩
    obtain ⟨x, hlabel, hspelled⟩ | ⟨x, hlabel, hspelled⟩ := List.append_eq_append_iff.mp hlabels
    · exact .inl ⟨x, hlabel, hspelled⟩
    · exact .inr ⟨x, hlabel, hspelled⟩
  · rintro ⟨hseverity, hpid, ⟨x, hlabel, hspelled⟩ | ⟨x, hlabel, hspelled⟩⟩
    · simp only [hseverity, hpid, hlabel, hspelled, List.append_assoc]
    · simp only [hseverity, hpid, hlabel, hspelled, List.append_assoc]

/-- Whose alerts share a key: the same rule's, for the same pid and process name. -/
def ToldApart (rule : NamedRule) (hit : Hit) (rule' : NamedRule) (hit' : Hit)
    (completeness completeness' : Execution.Completeness) : Prop :=
  (alertFor rule hit completeness).deduplicationKey = (alertFor rule' hit' completeness').deduplicationKey →
    rule.id = rule'.id ∧ hit.pid = hit'.pid ∧ hit.name = hit'.name

/-- What control characters the title and the key have, the rule has brought. -/
def Printable (rule : NamedRule) (hit : Hit) (completeness : Execution.Completeness) : Prop :=
  ∀ c, isControl c = true →
    (c ∈ (alertFor rule hit completeness).title.toList → c ∈ rule.name.toList) ∧
      (c ∈ (alertFor rule hit completeness).deduplicationKey.toList → c ∈ rule.id.toList ∨ c ∈ rule.name.toList)

theorem alertFor_printable (rule : NamedRule) (hit : Hit) (completeness : Execution.Completeness) :
    Printable rule hit completeness := by
  intro c hc
  have hspelled : c ∉ controls.spell hit.name.toList := by
    intro hmem
    have hplain : isControl c = false := controls_lawful.not_special hmem
    rw [hc] at hplain
    cases hplain
  have hdigit : c ∉ Nat.toDigits 10 hit.pid.toNat := by
    intro hmem
    have hd := Nat.isDigit_of_mem_toDigits (by decide) (by decide) hmem
    simp only [Char.isDigit, ge_iff_le, Bool.and_eq_true, decide_eq_true_eq] at hd
    simp only [isControl, Bool.or_eq_true, decide_eq_true_eq, Bool.and_eq_true] at hc
    have hlow : 48 ≤ c.toNat := hd.1
    have hhigh : c.toNat ≤ 57 := hd.2
    omega
  have hliteral : ∀ l : List Char, (l.all fun d => !isControl d) = true → c ∉ l := by
    intro l hl hmem
    have hplain := List.all_eq_true.mp hl c hmem
    simp [hc] at hplain
  have hdigits : (toString hit.pid.toNat).toList = Nat.toDigits 10 hit.pid.toNat := Nat.toList_repr
  constructor
  · intro hmem
    simp only [alertFor, RuleAlert.new, String.toList_append, toList_printable, hdigits, List.mem_append,
      hspelled, hdigit, or_false] at hmem
    obtain ((hmem | hmem) | hmem) | hmem := hmem
    · exact hmem
    · exact absurd hmem (hliteral _ (by decide))
    · exact absurd hmem (hliteral _ (by decide))
    · exact absurd hmem (hliteral _ (by decide))
  · intro hmem
    have hseverity : c ∉ rule.severity.text.toList := by
      cases rule.severity <;> exact hliteral _ (by decide)
    simp only [alertFor, RuleAlert.new, String.toList_append, toList_printable, hdigits, List.mem_append,
      hspelled, hdigit, hseverity, or_false, false_or] at hmem
    obtain ((hmem | hmem) | hmem) | ((hmem | hmem) | hmem) | hmem := hmem
    · exact absurd hmem (hliteral _ (by decide))
    · exact .inl hmem
    · exact absurd hmem (hliteral _ (by decide))
    · exact .inr hmem
    · exact absurd hmem (hliteral _ (by decide))
    · exact absurd hmem (hliteral _ (by decide))
    · exact absurd hmem (hliteral _ (by decide))

theorem keys_told_apart_iff (rule rule' : NamedRule) (hit hit' : Hit)
    (completeness completeness' : Execution.Completeness) :
    (ToldApart rule hit rule' hit' completeness completeness' ∧ Printable rule hit completeness) ↔
      rule.severity ≠ rule'.severity ∨ hit.pid ≠ hit'.pid ∨ (rule.id = rule'.id ∧ hit.name = hit'.name) ∨
        (¬ Overlap rule hit rule' hit' ∧ ¬ Overlap rule' hit' rule hit) := by
  rw [ToldApart, key_eq_iff, and_iff_left (alertFor_printable rule hit completeness)]
  tauto

/-! ## Two collisions -/

namespace ColonRules

def query : String := "SELECT pid, name FROM processes"

/-- A colon belongs to the name of one rule, and to the id of the other. -/
def named : NamedRule := ⟨⟨"net", query, true⟩, "shell:listener", .high⟩

def identified : NamedRule := ⟨⟨"net:shell", query, true⟩, "listener", .high⟩

def netcat : Hit := ⟨42, "nc"⟩

/-- A process whose name ends in a line feed, and one whose name ends in a backslash and an n. -/
def fed : Hit := ⟨42, "nc\n"⟩

def spelled : Hit := ⟨42, "nc\\n"⟩

def seen : Execution.Completeness := .fromReasons []

theorem different_detections_share_a_key :
    ¬ ToldApart named netcat identified netcat seen seen ∧ ¬ ToldApart named fed named spelled seen seen := by
  constructor
  · intro h
    exact absurd (h (by decide +kernel)).1 (by decide)
  · intro h
    exact absurd (h (by decide +kernel)).2.2 (by decide)

end ColonRules

end DaemonEye
