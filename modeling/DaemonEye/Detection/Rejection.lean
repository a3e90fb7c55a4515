import DaemonEye.Proto

/-!
# Rejections

Why a rule's SQL or one of its patterns was refused at load, with the
texts an operator reads.
-/

namespace DaemonEye

inductive SqlPosition
  | known (line column : Nat)
  | unknown
deriving DecidableEq

def SqlPosition.text : SqlPosition → String
  | .known line column => "line " ++ toString line ++ ", column " ++ toString column
  | .unknown => "position unavailable"

inductive SqlRejection
  | parseFailed (message : String)
  | multipleStatements (count : Nat)
  | notASelect (statementKind : String)
  | functionNotAllowed (function : String) (position : SqlPosition)
  | subqueryTooDeep (depth maxDepth : Nat)
  | tooManyOf (construct : String) (found limit : Nat)
  | unsupportedFromItem (construct : String)
  | missingFrom
  | castNotAllowed (construct : String)
  | operatorNotAllowed (operator : String) (position : SqlPosition)
  | unsupportedClause (clause : String)
deriving DecidableEq

def SqlRejection.text : SqlRejection → String
  | .parseFailed message => "SQL failed to parse: " ++ message
  | .multipleStatements count => "only a single SQL statement is allowed, found " ++ toString count
  | .notASelect kind => "only SELECT statements are allowed, found " ++ kind
  | .functionNotAllowed function position =>
    "function `" ++ function ++ "` is not on the detection function allowlist (" ++ position.text ++ ")"
  | .subqueryTooDeep depth maxDepth =>
    "subquery nesting depth " ++ toString depth ++ " exceeds the configured maximum of " ++ toString maxDepth
  | .tooManyOf construct found limit =>
    construct ++ " count " ++ toString found ++ " exceeds the maximum of " ++ toString limit
  | .unsupportedFromItem construct => "unsupported FROM item: " ++ construct
  | .missingFrom => "SELECT statement must have a FROM clause"
  | .castNotAllowed construct => construct ++ " is not allowed in a detection rule"
  | .operatorNotAllowed operator position =>
    "operator `" ++ operator ++ "` is not allowed in a detection rule; use REGEXP, whose pattern is bounded (" ++
      position.text ++ ")"
  | .unsupportedClause clause =>
    "the planner cannot lower " ++ clause ++
      ", so this rule is refused rather than silently matching a different set of rows"

inductive RegexConstruct
  | backreference | lookahead | lookbehind
deriving DecidableEq

def RegexConstruct.text : RegexConstruct → String
  | .backreference => "a backreference"
  | .lookahead => "lookahead"
  | .lookbehind => "lookbehind"

inductive RegexRejection
  | compiledTooBig (pattern : String) (sizeLimitBytes : Nat)
  | unsupportedConstruct (pattern : String) (construct : RegexConstruct)
  | invalidSyntax (pattern message : String)
deriving DecidableEq

def RegexRejection.text : RegexRejection → String
  | .compiledTooBig pattern limit =>
    "pattern `" ++ pattern ++ "` compiles to more than the " ++ toString limit ++ "-byte limit"
  | .unsupportedConstruct pattern construct =>
    "pattern `" ++ pattern ++ "` uses " ++ construct.text ++ ", which the detection regex engine cannot compile"
  | .invalidSyntax pattern message => "pattern `" ++ pattern ++ "` is not valid: " ++ message

inductive RuleError
  | sqlRejected (rejection : SqlRejection)
  | regexRejected (rejection : RegexRejection)
  | missingField (field : String)
  | validationFailed (message : String)
  | ruleNotFound (message : String)
  | executionFailed (message : String)
deriving DecidableEq

def RuleError.text : RuleError → String
  | .sqlRejected rejection => "SQL rejected at rule load: " ++ rejection.text
  | .regexRejected rejection => "regex pattern rejected at rule load: " ++ rejection.text
  | .missingField field => "Missing required field: " ++ field
  | .validationFailed message => "Rule validation failed: " ++ message
  | .ruleNotFound message => "Rule not found: " ++ message
  | .executionFailed message => "Rule execution failed: " ++ message

/-- A loaded rule, as far as planning and scheduling read it. -/
structure DetectionRule where
  id : String
  sqlQuery : String
  enabled : Bool
deriving DecidableEq

end DaemonEye
