import DaemonEye.Lib.Precedence
import DaemonEye.Sql.Semantics

/-!
# Rewriting a residual

The residual is parsed, each `REGEXP` becomes a call, and what comes out is
written as text for the engine, which parses it again. A negated one becomes
`NOT` before a call without parentheses, so a tighter operator after it takes
the call alone.
-/

namespace DaemonEye

namespace Residual

open Sql Precedence

/-! ## Expressions -/

/-- The forms with words of their own at both ends; `other` has all those that the rewriter does not name. -/
inductive Closed
  | identifier (ident : Ident)
  | compoundIdentifier (parts : ObjectName)
  | value (value : Value)
  | nested
  | function (name : ObjectName)
  | other (words : List String)
deriving DecidableEq

inductive Suffix
  | isTest (test : IsTest)
  | inList (negated : Bool)
  | other (words : List String)
deriving DecidableEq

/-- The low bound of a `BETWEEN` ends at its `AND`, and so lies within the operator. -/
inductive Operator
  | binary (op : BinaryOperator)
  | isDistinctFrom
  | isNotDistinctFrom
  | between (negated : Bool)
  | like (negated any : Bool)
  | iLike (negated any : Bool)
  | similarTo (negated : Bool)
  | rLike (negated regexp : Bool)
  | other (words : List String)
deriving DecidableEq

abbrev SqlExpr := Tree Closed UnaryOperator Suffix Operator

abbrev SqlToken := Token Closed UnaryOperator Suffix Operator

/-! ## The rewriter -/

def regexpFunction : ObjectName := [⟨"regexp", none⟩]

def regexpCall (operand pattern : SqlExpr) : SqlExpr := .closed (.function regexpFunction) [operand, pattern]

/-- `RegexpRewriter::post_visit_expr`, at an operator whose operands were visited. -/
def replaceRLike (l : SqlExpr) (op : Operator) (inner : List SqlExpr) (r : SqlExpr) : SqlExpr :=
  match op with
  | .rLike negated _ => if negated then .pre .not (regexpCall l r) else regexpCall l r
  | op => .bin l op inner r

mutual

def rewrite : SqlExpr → SqlExpr
  | .closed head inner => .closed head (rewriteAll inner)
  | .pre op arg => .pre op (rewrite arg)
  | .post arg op inner => .post (rewrite arg) op (rewriteAll inner)
  | .bin l op inner r => replaceRLike (rewrite l) op (rewriteAll inner) (rewrite r)

def rewriteAll : List SqlExpr → List SqlExpr
  | [] => []
  | e :: es => rewrite e :: rewriteAll es

end

def rewriteResidual (w : Powers UnaryOperator Suffix Operator) (n : Nat) (fragment : List SqlToken) :
    Option (List SqlToken) :=
  (whole w n fragment).map fun selection => (rewrite selection).print

/-! ## What expressions mean -/

/-- What each form makes of what stands in it. -/
structure Meaning (V : Type) where
  closed : Closed → List V → V
  pre : UnaryOperator → V → V
  post : V → Suffix → List V → V
  bin : V → Operator → List V → V → V

namespace Meaning

variable {V : Type}

mutual

def eval (M : Meaning V) : SqlExpr → V
  | .closed head inner => M.closed head (evalAll M inner)
  | .pre op arg => M.pre op (eval M arg)
  | .post arg op inner => M.post (eval M arg) op (evalAll M inner)
  | .bin l op inner r => M.bin (eval M l) op (evalAll M inner) (eval M r)

def evalAll (M : Meaning V) : List SqlExpr → List V
  | [] => []
  | e :: es => eval M e :: evalAll M es

end

def regexp (M : Meaning V) (operand pattern : V) : V := M.closed (.function regexpFunction) [operand, pattern]

/-- An operator, where `x REGEXP p` is `regexp(x, p)` and `x NOT REGEXP p` is `NOT (regexp(x, p))`. -/
def readBin (M : Meaning V) (l : V) (op : Operator) (inner : List V) (r : V) : V :=
  match op with
  | .rLike negated _ => if negated then M.pre .not (M.regexp l r) else M.regexp l r
  | op => M.bin l op inner r

mutual

def read (M : Meaning V) : SqlExpr → V
  | .closed head inner => M.closed head (readAll M inner)
  | .pre op arg => M.pre op (read M arg)
  | .post arg op inner => M.post (read M arg) op (readAll M inner)
  | .bin l op inner r => M.readBin (read M l) op (readAll M inner) (read M r)

def readAll (M : Meaning V) : List SqlExpr → List V
  | [] => []
  | e :: es => read M e :: readAll M es

end

def syntactic : Meaning SqlExpr := ⟨.closed, .pre, .post, .bin⟩

end Meaning

/-- The rewritten text reads as an expression that means what the fragment's means, whatever the forms mean. -/
def Preserves (w : Powers UnaryOperator Suffix Operator) (fragment : List SqlToken) (e : SqlExpr) : Prop :=
  ∃ n text e', rewriteResidual w n fragment = some text ∧ Reads w text e' ∧ ∀ (V : Type) (M : Meaning V),
    M.eval e' = M.read e

/-! ## Where a negated `REGEXP` may stand -/

/-- The text of the expression ends in a negated `REGEXP` that is not in parentheses. -/
def Exposed : SqlExpr → Prop
  | .closed _ _ => False
  | .pre _ arg => Exposed arg
  | .post _ _ _ => False
  | .bin _ (.rLike negated _) _ _ => negated = true
  | .bin _ _ _ r => Exposed r

mutual

/-- No operator that binds tighter than `NOT` comes after a bare negated `REGEXP`. -/
def Loose (w : Powers UnaryOperator Suffix Operator) : SqlExpr → Prop
  | .closed _ inner => LooseAll w inner
  | .pre _ arg => Loose w arg
  | .post arg op inner => Loose w arg ∧ LooseAll w inner ∧ (w.operand .not < w.suffix op → ¬ Exposed arg)
  | .bin l (.rLike _ _) _ r => Loose w l ∧ Loose w r
  | .bin l op inner r => Loose w l ∧ LooseAll w inner ∧ Loose w r ∧ (w.operand .not < w.left op → ¬ Exposed l)

def LooseAll (w : Powers UnaryOperator Suffix Operator) : List SqlExpr → Prop
  | [] => True
  | e :: es => Loose w e ∧ LooseAll w es

end

/-! ## The rewritten tree -/

theorem replaceRLike_other {op : Operator} (h : ∀ negated regexp, op ≠ .rLike negated regexp) (l : SqlExpr)
    (inner : List SqlExpr) (r : SqlExpr) : replaceRLike l op inner r = .bin l op inner r := by
  cases op <;> first | rfl | exact absurd rfl (h _ _)

/-- Two kinds of operators: the regular-expression matches, and those that the rewriter leaves. -/
theorem operator_cases (op : Operator) :
    (∃ negated regexp, op = .rLike negated regexp) ∨ ∀ negated regexp, op ≠ .rLike negated regexp := by
  cases op <;> first | exact .inl ⟨_, _, rfl⟩ | exact .inr fun _ _ => nofun

section

variable {V : Type} (M : Meaning V)

theorem eval_replaceRLike (l : SqlExpr) (op : Operator) (inner : List SqlExpr) (r : SqlExpr) :
    M.eval (replaceRLike l op inner r) = M.readBin (M.eval l) op (M.evalAll inner) (M.eval r) := by
  cases op with
  | rLike negated regexp => cases negated <;> rfl
  | _ => rfl

mutual

theorem eval_rewrite : ∀ e : SqlExpr, M.eval (rewrite e) = M.read e
  | .closed head inner => by rw [rewrite, Meaning.eval, Meaning.read, evalAll_rewrite inner]
  | .pre op arg => by rw [rewrite, Meaning.eval, Meaning.read, eval_rewrite arg]
  | .post arg op inner => by rw [rewrite, Meaning.eval, Meaning.read, eval_rewrite arg, evalAll_rewrite inner]
  | .bin l op inner r => by
    rw [rewrite, eval_replaceRLike, Meaning.read, eval_rewrite l, evalAll_rewrite inner, eval_rewrite r]

theorem evalAll_rewrite : ∀ es : List SqlExpr, M.evalAll (rewriteAll es) = M.readAll es
  | [] => rfl
  | e :: es => by rw [rewriteAll, Meaning.evalAll, Meaning.readAll, eval_rewrite e, evalAll_rewrite es]

end

end

mutual

theorem eval_syntactic : ∀ e : SqlExpr, Meaning.syntactic.eval e = e
  | .closed head inner => by
    rw [Meaning.eval, evalAll_syntactic inner]
    rfl
  | .pre op arg => by
    rw [Meaning.eval, eval_syntactic arg]
    rfl
  | .post arg op inner => by
    rw [Meaning.eval, eval_syntactic arg, evalAll_syntactic inner]
    rfl
  | .bin l op inner r => by
    rw [Meaning.eval, eval_syntactic l, evalAll_syntactic inner, eval_syntactic r]
    rfl

theorem evalAll_syntactic : ∀ es : List SqlExpr, Meaning.syntactic.evalAll es = es
  | [] => rfl
  | e :: es => by rw [Meaning.evalAll, eval_syntactic e, evalAll_syntactic es]

end

/-! ## Its text -/

section

variable {w : Powers UnaryOperator Suffix Operator}

theorem ends_rewrite {q : Nat} : ∀ {e : SqlExpr}, Ends w q e →
    (Ends w q (rewrite e) ↔ (w.operand .not < q → ¬ Exposed e))
  | .closed head inner, _ => ⟨fun _ _ h => h, fun _ => trivial⟩
  | .pre op arg, h => by
    rw [rewrite, Exposed, ← ends_rewrite h.2]
    exact ⟨fun hends => hends.2, fun hends => ⟨h.1, hends⟩⟩
  | .post arg op inner, _ => ⟨fun _ _ h => h, fun _ => trivial⟩
  | .bin l op inner r, h => by
    rw [rewrite]
    obtain ⟨negated, regexp, rfl⟩ | hop := operator_cases op
    · cases negated with
      | false => exact ⟨fun _ _ hyes => (nomatch hyes), fun _ => trivial⟩
      | true => exact ⟨fun hends hlt => absurd hends.1 (Nat.not_le.mpr hlt),
        fun hloose => ⟨Nat.not_lt.mp fun hlt => hloose hlt rfl, trivial⟩⟩
    · have hexposed : Exposed (.bin l op inner r) = Exposed r := by
        cases op <;> first | rfl | exact absurd rfl (hop _ _)
      rw [replaceRLike_other hop, hexposed, ← ends_rewrite h.2]
      exact ⟨fun hends => hends.2, fun hends => ⟨h.1, hends⟩⟩

mutual

theorem canon_rewrite : ∀ {e : SqlExpr} {m : Nat}, Canon w m e → (Canon w m (rewrite e) ↔ Loose w e)
  | .closed head inner, m, h => canonAll_rewrite h
  | .pre op arg, m, h => canon_rewrite (e := arg) h
  | .post arg op inner, m, ⟨hm, harg, hends, hinner⟩ => by
    rw [rewrite, Canon, Loose, canon_rewrite harg, ends_rewrite hends, canonAll_rewrite hinner]
    exact ⟨fun h => ⟨h.2.1, h.2.2.2, h.2.2.1⟩, fun h => ⟨hm, h.1, h.2.2, h.2.1⟩⟩
  | .bin l op inner r, m, ⟨hm, hl, hends, hinner, hr⟩ => by
    rw [rewrite]
    obtain ⟨negated, regexp, rfl⟩ | hop := operator_cases op
    · have hcall : CanonAll w [rewrite l, rewrite r] ↔ Loose w (.bin l (.rLike negated regexp) inner r) := by
        rw [CanonAll, CanonAll, CanonAll, and_true, canon_rewrite (hl.looser (Nat.zero_le m)),
          canon_rewrite (hr.looser (Nat.zero_le _)), Loose]
      cases negated with
      | false => exact hcall
      | true => exact hcall
    · have hloose : Loose w (.bin l op inner r) ↔
          Loose w l ∧ LooseAll w inner ∧ Loose w r ∧ (w.operand .not < w.left op → ¬ Exposed l) := by
        cases op <;> first | exact Iff.rfl | exact absurd rfl (hop _ _)
      rw [replaceRLike_other hop, Canon, hloose, canon_rewrite hl, ends_rewrite hends, canonAll_rewrite hinner,
        canon_rewrite hr]
      exact ⟨fun h => ⟨h.2.1, h.2.2.2.1, h.2.2.2.2, h.2.2.1⟩, fun h => ⟨hm, h.1, h.2.2.2, h.2.1, h.2.2.1⟩⟩

theorem canonAll_rewrite : ∀ {es : List SqlExpr}, CanonAll w es → (CanonAll w (rewriteAll es) ↔ LooseAll w es)
  | [], _ => Iff.rfl
  | e :: es, ⟨he, hes⟩ => by rw [rewriteAll, CanonAll, LooseAll, canon_rewrite he, canonAll_rewrite hes]

end

end

namespace TestedMatch

def name : SqlExpr := .closed (.identifier ⟨"name", none⟩) []

def pattern : SqlExpr := .closed (.value (.singleQuotedString "x")) []

def notRegexp : SqlExpr := .bin name (.rLike true true) [] pattern

def harmless : SqlExpr := .bin notRegexp (.binary .or) [] (.post name (.isTest .null) [])

def reread : SqlExpr := .pre .not (.post (regexpCall name pattern) (.isTest .null) [])

end TestedMatch

end Residual

end DaemonEye
