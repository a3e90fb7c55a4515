import DaemonEye.Detection.Rejection

/-!
# The rejection log

A bounded, hash-chained record of what the engine refused. The hash, the
calendar and the clock are parameters; the clock is read once a record.
-/

namespace DaemonEye

/-- BLAKE3 over a string, RFC 3339 rendering, and the reading taken for each record. -/
structure AuditCrates where
  hashString : String → String
  rfc3339 : SystemTime → String
  utcNow : (sequence : Nat) → SystemTime

inductive RegistrationGate
  | noTokenPresented | tokenMismatch | unknownCollector | malformedRequest | alreadyRegistered
deriving DecidableEq

def RegistrationGate.text : RegistrationGate → String
  | .noTokenPresented => "no spawn token presented"
  | .tokenMismatch => "spawn token did not match"
  | .unknownCollector => "no spawn token issued for this collector identity"
  | .malformedRequest => "registration request failed field validation"
  | .alreadyRegistered => "collector identity is already registered"

inductive RejectionReason
  | ruleSql (ruleId : String) (rejection : SqlRejection)
  | ruleRegex (ruleId : String) (rejection : RegexRejection)
  | ruleOther (ruleId message : String)
  | registration (collectorId : String) (gate : RegistrationGate)
deriving DecidableEq

def RejectionReason.action : RejectionReason → String
  | .ruleSql .. => "rule-load.sql-rejected"
  | .ruleRegex .. => "rule-load.regex-rejected"
  | .ruleOther .. => "rule-load.rejected"
  | .registration .. => "registration.rejected"

def RejectionReason.text : RejectionReason → String
  | .ruleSql ruleId rejection => "rule `" ++ ruleId ++ "` rejected: " ++ rejection.text
  | .ruleRegex ruleId rejection => "rule `" ++ ruleId ++ "` rejected: " ++ rejection.text
  | .ruleOther ruleId message => "rule `" ++ ruleId ++ "` rejected: " ++ message
  | .registration collectorId gate => "registration of collector `" ++ collectorId ++ "` rejected: " ++ gate.text

structure RejectionRecord where
  sequence : Nat
  timestamp : SystemTime
  reason : RejectionReason
  payloadHash : String
  previousHash : Option String
  entryHash : String
deriving DecidableEq

/-- A field behind its byte length, so that no content can pass for a separator. -/
def encodeField (field : String) : String := toString field.utf8ByteSize ++ ":" ++ field

def computeEntryHashInput (A : AuditCrates) (sequence : Nat) (timestamp : SystemTime)
    (actor action payloadHash : String) (previousHash : Option String) : String :=
  "v2:" ++ toString sequence ++ ":" ++ encodeField (A.rfc3339 timestamp) ++ encodeField actor ++
    encodeField action ++ encodeField payloadHash ++ encodeField (previousHash.getD "")

def RejectionRecord.hashInput (A : AuditCrates) (r : RejectionRecord) : String :=
  computeEntryHashInput A r.sequence r.timestamp "daemoneye-agent" r.reason.action r.payloadHash r.previousHash

def maxRejectionRecords : Nat := 1024

def u64Max : Nat := 2 ^ 64 - 1

structure RejectionLog where
  records : List RejectionRecord
  nextSequence : Nat
deriving DecidableEq

def RejectionLog.new : RejectionLog := ⟨[], 0⟩

@[irreducible] def RejectionLog.record (A : AuditCrates) (self : RejectionLog) (reason : RejectionReason) :
    RejectionLog :=
  let record : RejectionRecord :=
    { sequence := self.nextSequence
      timestamp := A.utcNow self.nextSequence
      reason := reason
      payloadHash := A.hashString reason.text
      previousHash := self.records.getLast?.map RejectionRecord.entryHash
      entryHash := "" }
  let record := { record with entryHash := A.hashString (record.hashInput A) }
  let records := self.records ++ [record]
  ⟨records.drop (records.length - maxRejectionRecords), min (self.nextSequence + 1) u64Max⟩

end DaemonEye
