import DaemonEye.Detection.SqlValidation
import DaemonEye.Lib.Lru

/-!
# Bounded compilation and caching of patterns

The regex crate is a parameter. A cached program is the one compiling its
pattern yields, which is a field of the cache, so a lookup answers as a
fresh compilation would, whatever was evicted before it.
-/

namespace DaemonEye

inductive RegexError
  | compiledTooBig (limit : Nat)
  | syntaxError (message : String)
  | unknown (message : String)
deriving DecidableEq

/-- The regex crate: a builder with its two byte limits, and matching. -/
structure RegexCrate where
  Regex : Type
  build : (sizeLimit dfaSizeLimit : Nat) → String → Except RegexError Regex
  isMatch : Regex → String → Bool

def regexSizeLimitBytes : Nat := 256 * 1024

def regexDfaSizeLimitBytes : Nat := 256 * 1024

def regexCacheMaxEntries : Nat := 64

/-! ## Naming a failure -/

def classifyFrom (inClass : Bool) : List Char → Option RegexConstruct
  | [] => none
  | '\\' :: [] => none
  | '\\' :: escaped :: rest =>
    if !inClass && (('1' ≤ escaped && escaped ≤ '9') || escaped = 'k') then some .backreference
    else classifyFrom inClass rest
  | '(' :: '?' :: rest =>
    if inClass then classifyFrom true ('?' :: rest)
    else
      match rest with
      | '=' :: _ => some .lookahead
      | '!' :: _ => some .lookahead
      | '<' :: '=' :: _ => some .lookbehind
      | '<' :: '!' :: _ => some .lookbehind
      | '<' :: rest => classifyFrom false rest
      | rest => classifyFrom false rest
  | c :: rest =>
    if inClass then classifyFrom (c ≠ ']') rest
    else classifyFrom (c = '[') rest

def classifyConstruct (pattern : String) : Option RegexConstruct := classifyFrom false pattern.toList

def classifyFailure (pattern : String) : RegexError → RegexRejection
  | .compiledTooBig _ => .compiledTooBig pattern regexSizeLimitBytes
  | .syntaxError message =>
    match classifyConstruct pattern with
    | none => .invalidSyntax pattern message
    | some construct => .unsupportedConstruct pattern construct
  | .unknown message => .invalidSyntax pattern message

def compileBounded (R : RegexCrate) (pattern : String) : Except RegexRejection R.Regex :=
  (R.build regexSizeLimitBytes regexDfaSizeLimitBytes pattern).mapError (classifyFailure pattern)

/-! ## The cache -/

structure RegexCache (R : RegexCrate) where
  entries : Lru String R.Regex regexCacheMaxEntries
  hits : UInt64
  compiles : UInt64
  sound : ∀ e ∈ entries.entries, compileBounded R e.1 = .ok e.2

namespace RegexCache

variable {R : RegexCrate}

def new : RegexCache R := ⟨.empty, 0, 0, fun e h => by cases h⟩

def getOrCompile (cache : RegexCache R) (pattern : String) : Except RegexRejection R.Regex × RegexCache R :=
  match (cache.entries.get pattern).1 with
  | some compiled =>
    (.ok compiled, ⟨(cache.entries.get pattern).2, cache.hits + 1, cache.compiles,
      fun e he => cache.sound e (Lru.mem_get he)⟩)
  | none =>
    match hc : compileBounded R pattern with
    | .error rejection => (.error rejection, { cache with compiles := cache.compiles + 1 })
    | .ok compiled =>
      (.ok compiled, ⟨cache.entries.put pattern compiled, cache.hits, cache.compiles + 1, fun e he => by
        rcases Lru.mem_put he with rfl | he
        · exact hc
        · exact cache.sound e he⟩)

theorem getOrCompile_fst (cache : RegexCache R) (pattern : String) :
    (cache.getOrCompile pattern).1 = compileBounded R pattern := by
  unfold getOrCompile
  split
  · rename_i compiled h
    exact (cache.sound _ (Lru.mem_of_get h)).symm
  · split <;> simp_all

end RegexCache

/-! ## A rule's patterns -/

variable {R : RegexCrate}

def compilePatterns : RegexCache R → List String → Except RuleError (List R.Regex) × RegexCache R
  | cache, [] => (.ok [], cache)
  | cache, pattern :: rest =>
    match cache.getOrCompile pattern with
    | (.error rejection, cache) => (.error (.regexRejected rejection), cache)
    | (.ok compiled, cache) =>
      match compilePatterns cache rest with
      | (.error e, cache) => (.error e, cache)
      | (.ok programs, cache) => (.ok (compiled :: programs), cache)

def compileRulePatterns (P : Sqlparser) (cache : RegexCache R) (rule : DetectionRule) (patterns : List String)
    (maxSubqueryDepth : Nat) : Except RuleError (List R.Regex) × RegexCache R :=
  match rule.validateSqlWithDepth P maxSubqueryDepth with
  | .error e => (.error e, cache)
  | .ok _ => compilePatterns cache patterns

def compileAll (R : RegexCrate) : List String → Except RuleError (List R.Regex)
  | [] => .ok []
  | pattern :: rest => do
    let compiled ← (compileBounded R pattern).mapError RuleError.regexRejected
    let programs ← compileAll R rest
    .ok (compiled :: programs)

theorem compilePatterns_fst : ∀ (patterns : List String) (cache : RegexCache R),
    (compilePatterns cache patterns).1 = compileAll R patterns
  | [], _ => rfl
  | pattern :: rest, cache => by
    have hone := cache.getOrCompile_fst pattern
    unfold compilePatterns compileAll
    rw [← hone]
    rcases cache.getOrCompile pattern with ⟨rejection | compiled, cache'⟩
    · rfl
    · have hrest := compilePatterns_fst rest cache'
      rcases h : compilePatterns cache' rest with ⟨e | programs, cache''⟩ <;>
        · simp only [h] at hrest ⊢
          rw [← hrest]
          rfl

theorem compileRulePatterns_fst (P : Sqlparser) (cache : RegexCache R) (rule : DetectionRule) (patterns : List String)
    (depth : Nat) : (compileRulePatterns P cache rule patterns depth).1 =
      rule.validateSqlWithDepth P depth >>= fun _ => compileAll R patterns := by
  unfold compileRulePatterns
  cases rule.validateSqlWithDepth P depth with
  | error e => rfl
  | ok _ => exact compilePatterns_fst patterns cache

end DaemonEye
