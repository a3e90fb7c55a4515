import Mathlib.Data.Rat.Defs
import Mathlib.Algebra.Order.Ring.Rat
import DaemonEye.Eventbus.Topic
import DaemonEye.Lib.BucketTable
import DaemonEye.Lib.OrdMap

/-!
# The rate limiter

A message is charged to its client's bucket, to that of the first prefix of
its topic that has a limit, and to that of the client and the topic together,
one after the other. A later bucket's refusal leaves the earlier ones charged.
-/

namespace DaemonEye.Eventbus

/-! ## Limits -/

/-- The limits per client and per topic lie in the order in which their map gives them. Those within them are not
read. -/
structure RateLimitConfig where
  capacity : Nat
  refillRate : ℚ
  perClientLimits : List (String × RateLimitConfig)
  perTopicLimits : List (String × RateLimitConfig)

namespace RateLimitConfig

def limit (config : RateLimitConfig) : BucketLimit ℚ := ⟨config.capacity, config.refillRate⟩

def findTopic (config : RateLimitConfig) (topic : String) : Option (String × RateLimitConfig) :=
  config.perTopicLimits.find? fun limit => startsWith topic limit.1

def findTopicConfig (config : RateLimitConfig) (topic : String) : Option RateLimitConfig :=
  (config.findTopic topic).map Prod.snd

/-- The client's limit, else the topic's, else the general one. -/
def select (config : RateLimitConfig) : Option String → Option String → RateLimitConfig
  | some cid, some t => ((config.perClientLimits.lookup cid).or (config.findTopicConfig t)).getD config
  | some cid, none => (config.perClientLimits.lookup cid).getD config
  | none, some t => (config.findTopicConfig t).getD config
  | none, none => config

end RateLimitConfig

/-! ## Checking a message -/

inductive BucketStore
  | client
  | topic
  | combined
deriving DecidableEq

structure RateLimiter where
  defaultConfig : RateLimitConfig
  clientBuckets : OrdMap String (TokenBucket ℚ)
  topicBuckets : OrdMap String (TokenBucket ℚ)
  combinedBuckets : OrdMap String (TokenBucket ℚ)

structure RateCall where
  clientId : Option String
  topic : Option String
  now : ℚ
deriving DecidableEq

def combinedKey (cid topic : String) : String := cid ++ ":" ++ topic

namespace RateLimiter

def new (config : RateLimitConfig) : RateLimiter := ⟨config, .empty, .empty, .empty⟩

def buckets (self : RateLimiter) : BucketStore → OrdMap String (TokenBucket ℚ)
  | .client => self.clientBuckets
  | .topic => self.topicBuckets
  | .combined => self.combinedBuckets

def setBuckets (self : RateLimiter) (store : BucketStore) (buckets : OrdMap String (TokenBucket ℚ)) : RateLimiter :=
  match store with
  | .client => { self with clientBuckets := buckets }
  | .topic => { self with topicBuckets := buckets }
  | .combined => { self with combinedBuckets := buckets }

/-- One token of the key's bucket, which is made where there is none. -/
def charge (self : RateLimiter) (store : BucketStore) (key : String) (config : RateLimitConfig) (now : ℚ) :
    Bool × RateLimiter :=
  let charged := (((self.buckets store).get key).getD (.new config.limit now)).tryConsume 1 now
  (charged.1, self.setBuckets store ((self.buckets store).insert key charged.2))

def checkClient (self : RateLimiter) (config : RateLimitConfig) (call : RateCall) : Bool × RateLimiter :=
  match call.clientId with
  | none => (true, self)
  | some cid => self.charge .client cid config call.now

def checkTopic (self : RateLimiter) (call : RateCall) : Bool × RateLimiter :=
  match call.topic.bind self.defaultConfig.findTopic with
  | none => (true, self)
  | some (start, topicConfig) => self.charge .topic start topicConfig call.now

def checkCombined (self : RateLimiter) (config : RateLimitConfig) (call : RateCall) : Bool × RateLimiter :=
  match call.clientId, call.topic with
  | some cid, some t => self.charge .combined (combinedKey cid t) config call.now
  | _, _ => (true, self)

def checkRateLimit (self : RateLimiter) (call : RateCall) : Bool × RateLimiter :=
  let config := self.defaultConfig.select call.clientId call.topic
  match self.checkClient config call with
  | (false, self) => (false, self)
  | (true, self) =>
    match self.checkTopic call with
    | (false, self) => (false, self)
    | (true, self) => self.checkCombined config call

/-! ## The limiter as a table of buckets -/

def table (self : RateLimiter) : BucketTable (BucketStore × String) ℚ := fun i => (self.buckets i.1).get i.2

end RateLimiter

namespace RateLimitConfig

def clientCharge (config : RateLimitConfig) (call : RateCall) : List ((BucketStore × String) × BucketLimit ℚ) :=
  call.clientId.toList.map fun cid => ((.client, cid), (config.select call.clientId call.topic).limit)

def topicCharge (config : RateLimitConfig) (call : RateCall) : List ((BucketStore × String) × BucketLimit ℚ) :=
  (call.topic.bind config.findTopic).toList.map fun found => ((.topic, found.1), found.2.limit)

def combinedCharge (config : RateLimitConfig) (call : RateCall) : List ((BucketStore × String) × BucketLimit ℚ) :=
  match call.clientId, call.topic with
  | some cid, some t => [((.combined, combinedKey cid t), (config.select call.clientId call.topic).limit)]
  | _, _ => []

/-- A message is a request to the buckets that it is charged at. -/
def request (config : RateLimitConfig) (call : RateCall) : ChargeRequest (BucketStore × String) ℚ where
  now := call.now
  charges := config.clientCharge call ++ (config.topicCharge call ++ config.combinedCharge call)
  nodup := by
    unfold clientCharge topicCharge combinedCharge
    cases call.clientId <;> cases call.topic <;> simp
    all_goals cases config.findTopic _ <;> simp

end RateLimitConfig

namespace RateLimiter

variable {self : RateLimiter} {call : RateCall}

theorem charge_table (self : RateLimiter) (store : BucketStore) (key : String) (config : RateLimitConfig) (now : ℚ) :
    ((self.charge store key config now).1, (self.charge store key config now).2.table) =
      BucketTable.chargeAll now [((store, key), config.limit)] self.table := by
  have htable : (self.charge store key config now).2.table =
      Function.update self.table (store, key)
        (some ((self.table.bucketAt ((store, key), config.limit) now).tryConsume 1 now).2) := by
    funext ⟨store', key'⟩
    by_cases hstore : store' = store
    · subst hstore
      by_cases hkey : key' = key
      · subst hkey
        rw [Function.update_self]
        cases store' <;> exact (OrdMap.get_insert ..).trans (if_pos rfl)
      · rw [Function.update_of_ne fun heq => hkey (Prod.mk.inj heq).2]
        cases store' <;> exact (OrdMap.get_insert ..).trans (if_neg (Ne.symm hkey))
    · rw [Function.update_of_ne fun heq => hstore (Prod.mk.inj heq).1]
      cases store <;> cases store' <;> first | rfl | exact absurd rfl hstore
  rw [BucketTable.chargeAll_cons, ← htable]
  by_cases hcharged : ((self.table.bucketAt ((store, key), config.limit) now).tryConsume 1 now).1 = true
  · rw [if_pos hcharged]
    exact congrArg (·, _) hcharged
  · rw [if_neg hcharged]
    exact congrArg (·, _) (Bool.eq_false_iff.mpr hcharged)

theorem checkClient_table (self : RateLimiter) (call : RateCall) :
    ((self.checkClient (self.defaultConfig.select call.clientId call.topic) call).1,
        (self.checkClient (self.defaultConfig.select call.clientId call.topic) call).2.table) =
      BucketTable.chargeAll call.now (self.defaultConfig.clientCharge call) self.table := by
  unfold checkClient RateLimitConfig.clientCharge
  cases call.clientId with
  | none => rfl
  | some cid => exact charge_table ..

theorem checkTopic_table (self : RateLimiter) (call : RateCall) :
    ((self.checkTopic call).1, (self.checkTopic call).2.table) =
      BucketTable.chargeAll call.now (self.defaultConfig.topicCharge call) self.table := by
  unfold checkTopic RateLimitConfig.topicCharge
  cases call.topic.bind self.defaultConfig.findTopic with
  | none => rfl
  | some found => exact charge_table ..

theorem checkCombined_table (self : RateLimiter) (call : RateCall) :
    ((self.checkCombined (self.defaultConfig.select call.clientId call.topic) call).1,
        (self.checkCombined (self.defaultConfig.select call.clientId call.topic) call).2.table) =
      BucketTable.chargeAll call.now (self.defaultConfig.combinedCharge call) self.table := by
  unfold checkCombined RateLimitConfig.combinedCharge
  cases call.clientId with
  | none => rfl
  | some cid =>
    cases call.topic with
    | none => rfl
    | some t => exact charge_table ..

theorem charge_config (self : RateLimiter) (store : BucketStore) (key : String) (config : RateLimitConfig) (now : ℚ) :
    (self.charge store key config now).2.defaultConfig = self.defaultConfig := by
  cases store <;> rfl

theorem checkClient_config (self : RateLimiter) (config : RateLimitConfig) (call : RateCall) :
    (self.checkClient config call).2.defaultConfig = self.defaultConfig := by
  unfold checkClient
  cases call.clientId with
  | none => rfl
  | some cid => exact charge_config ..

theorem checkTopic_config (self : RateLimiter) (call : RateCall) :
    (self.checkTopic call).2.defaultConfig = self.defaultConfig := by
  unfold checkTopic
  cases call.topic.bind self.defaultConfig.findTopic with
  | none => rfl
  | some found => exact charge_config ..

theorem checkCombined_config (self : RateLimiter) (config : RateLimitConfig) (call : RateCall) :
    (self.checkCombined config call).2.defaultConfig = self.defaultConfig := by
  unfold checkCombined
  cases call.clientId with
  | none => rfl
  | some cid =>
    cases call.topic with
    | none => rfl
    | some t => exact charge_config ..

theorem checkRateLimit_table (self : RateLimiter) (call : RateCall) :
    ((self.checkRateLimit call).1, (self.checkRateLimit call).2.table) =
        BucketTable.serve self.defaultConfig.request self.table call ∧
      (self.checkRateLimit call).2.defaultConfig = self.defaultConfig := by
  have hclient := self.checkClient_table call
  have hconfig := self.checkClient_config (self.defaultConfig.select call.clientId call.topic) call
  unfold checkRateLimit BucketTable.serve RateLimitConfig.request
  dsimp only
  rw [BucketTable.chargeAll_append, BucketTable.chargeAll_append, ← hclient]
  generalize self.checkClient (self.defaultConfig.select call.clientId call.topic) call = afterClient at hconfig ⊢
  obtain ⟨clientOk, s⟩ := afterClient
  cases clientOk with
  | false => exact ⟨rfl, hconfig⟩
  | true =>
    have htopic := s.checkTopic_table call
    have hconfig' := s.checkTopic_config call
    dsimp only at hconfig ⊢
    rw [hconfig] at htopic hconfig'
    rw [if_pos rfl, ← htopic]
    generalize s.checkTopic call = afterTopic at hconfig' ⊢
    obtain ⟨topicOk, s'⟩ := afterTopic
    cases topicOk with
    | false => exact ⟨rfl, hconfig'⟩
    | true =>
      have hcombined := s'.checkCombined_table call
      dsimp only at hconfig' ⊢
      rw [hconfig'] at hcombined
      rw [if_pos rfl, ← hcombined]
      exact ⟨rfl, (s'.checkCombined_config _ call).trans hconfig'⟩

theorem simulates (config : RateLimitConfig) :
    Service.Simulates checkRateLimit (BucketTable.serve config.request) table fun s => s.defaultConfig = config where
  answer s call hs := by
    subst hs
    exact congrArg Prod.fst (s.checkRateLimit_table call).1
  state s call hs := by
    subst hs
    exact congrArg Prod.snd (s.checkRateLimit_table call).1
  kept s call hs := (s.checkRateLimit_table call).2.trans hs

end RateLimiter

end DaemonEye.Eventbus
