import DaemonEye.Eventbus.RateLimiter

/-!
# What a denied message costs

Nothing, if it is the first of its buckets that denies it. A denial by a
later one has cost the client a token, which a message on another topic may
then be short of. What is allowed keeps to the rates all the same.
-/

namespace DaemonEye.Eventbus

namespace RateLimiter

def Same (now : ℚ) (s s' : RateLimiter) : Prop :=
  ∀ store key, ((s.buckets store).get key).map (·.refill now) = ((s'.buckets store).get key).map (·.refill now)

def CostsNothing (s : RateLimiter) (call : RateCall) : Prop :=
  (s.checkRateLimit call).1 = false → Same call.now (s.checkRateLimit call).2 s

def HasToken (s : RateLimiter) (now : ℚ) (charge : (BucketStore × String) × BucketLimit ℚ) : Prop :=
  1 ≤ (((((s.buckets charge.1.1).get charge.1.2).getD (.new charge.2 now)).refill now).tokens : ℚ)

/-- If the first bucket of the message has a token, so have its others. If it has none, it is there already. -/
def Spared (s : RateLimiter) (call : RateCall) : Prop :=
  ∀ first rest, (s.defaultConfig.request call).charges = first :: rest →
    (s.HasToken call.now first → ∀ charge ∈ rest, s.HasToken call.now charge) ∧
      (¬ s.HasToken call.now first → ((s.buckets first.1.1).get first.1.2).isSome = true)

def allowed (config : RateLimitConfig) (calls : List RateCall) : List RateCall :=
  Service.granted checkRateLimit (new config) calls

def Independent (config : RateLimitConfig) (calls : List RateCall) : Prop :=
  ∀ kept, Service.Thinned checkRateLimit (new config) calls kept → allowed config kept = allowed config calls

def ofClient (cid : String) (start span : ℚ) (call : RateCall) : Bool :=
  decide (call.clientId = some cid ∧ start ≤ call.now ∧ call.now ≤ start + span)

def ofTopic (config : RateLimitConfig) (topicStart : String) (start span : ℚ) (call : RateCall) : Bool :=
  decide ((call.topic.bind config.findTopic).map Prod.fst = some topicStart ∧ start ≤ call.now ∧
    call.now ≤ start + span)

/-- In any time a bucket allows no more than it holds and gains. Its capacity and rate are those that it was made
with. -/
structure Bounded (config : RateLimitConfig) (calls : List RateCall) (start span : ℚ) : Prop where
  client : ∀ cid bucket, (Service.run checkRateLimit (new config) calls).clientBuckets.get cid = some bucket →
    0 ≤ bucket.refillRate →
      ((allowed config calls).countP (ofClient cid start span) : ℚ) ≤ bucket.capacity + bucket.refillRate * span
  topic : ∀ topicStart bucket, (Service.run checkRateLimit (new config) calls).topicBuckets.get topicStart =
    some bucket → 0 ≤ bucket.refillRate →
      ((allowed config calls).countP (ofTopic config topicStart start span) : ℚ) ≤ bucket.capacity +
        bucket.refillRate * span

theorem spared_iff (s : RateLimiter) (call : RateCall) : s.Spared call ↔
    s.table.Spared (s.defaultConfig.request call) := by
  unfold Spared BucketTable.Spared HasToken BucketTable.HasToken
  rw [Nat.cast_one]
  rfl

theorem costsNothing_iff_spared (s : RateLimiter) (call : RateCall) : s.CostsNothing call ↔ s.Spared call := by
  have hserve := (s.checkRateLimit_table call).1
  have hanswer : (s.checkRateLimit call).1 = s.table.grants (s.defaultConfig.request call) := congrArg Prod.fst hserve
  have hstate : (s.checkRateLimit call).2.table = s.table.step (s.defaultConfig.request call) :=
    congrArg Prod.snd hserve
  have hsame : Same call.now (s.checkRateLimit call).2 s ↔
      BucketTable.Alike call.now (s.table.step (s.defaultConfig.request call)) s.table := by
    rw [← hstate]
    exact ⟨fun h i => h i.1 i.2, fun h store key => h (store, key)⟩
  rw [CostsNothing, hanswer, hsame, spared_iff]
  exact s.table.costless_iff (s.defaultConfig.request call)

theorem mem_charges_client (config : RateLimitConfig) (call : RateCall) (cid : String) :
    (BucketStore.client, cid) ∈ (config.request call).charges.map Prod.fst ↔ call.clientId = some cid := by
  show (BucketStore.client, cid) ∈
    (config.clientCharge call ++ (config.topicCharge call ++ config.combinedCharge call)).map Prod.fst ↔ _
  unfold RateLimitConfig.clientCharge RateLimitConfig.topicCharge RateLimitConfig.combinedCharge
  cases call.clientId with
  | none => simp
  | some cid' => cases call.topic <;> simp [eq_comm]

theorem mem_charges_topic (config : RateLimitConfig) (call : RateCall) (topicStart : String) :
    (BucketStore.topic, topicStart) ∈ (config.request call).charges.map Prod.fst ↔
      (call.topic.bind config.findTopic).map Prod.fst = some topicStart := by
  show (BucketStore.topic, topicStart) ∈
    (config.clientCharge call ++ (config.topicCharge call ++ config.combinedCharge call)).map Prod.fst ↔ _
  unfold RateLimitConfig.clientCharge RateLimitConfig.topicCharge RateLimitConfig.combinedCharge
  generalize call.topic.bind config.findTopic = found
  cases found <;> cases call.clientId <;> cases call.topic <;> simp [eq_comm]

/-! ## Runs -/

section

variable {config : RateLimitConfig} {calls : List RateCall}

theorem table_new (config : RateLimitConfig) : (new config).table = BucketTable.empty := by
  funext ⟨store, key⟩
  cases store <;> rfl

theorem allowed_eq (config : RateLimitConfig) (calls : List RateCall) :
    allowed config calls = Service.granted (BucketTable.serve config.request) BucketTable.empty calls := by
  rw [← table_new config]
  exact (simulates config).granted calls rfl

theorem table_run (config : RateLimitConfig) (calls : List RateCall) :
    (Service.run checkRateLimit (new config) calls).table = Service.run
      (BucketTable.serve config.request) BucketTable.empty calls := by
  rw [← table_new config]
  exact (simulates config).run calls rfl

theorem independent (hsorted : calls.Pairwise fun earlier later => earlier.now ≤ later.now)
    (hspared : Service.Throughout checkRateLimit Spared (new config) calls) : Independent config calls := by
  intro kept hthin
  have hthin' := (simulates config).thinned hthin rfl
  have hspared' : Service.Throughout (BucketTable.serve config.request) (fun T call => T.Spared (config.request call))
      (new config).table calls :=
    ((simulates config).throughout (fun s call hs => hs ▸ s.spared_iff call) calls rfl).mp hspared
  rw [table_new] at hthin' hspared'
  rw [allowed_eq, allowed_eq]
  exact BucketTable.thinned_granted_empty hsorted hspared' hthin'

theorem bounded (hsorted : calls.Pairwise fun earlier later => earlier.now ≤ later.now) {start span : ℚ}
    (hspan : 0 ≤ span) :
    Bounded config calls start span := by
  have hslot : ∀ (i : BucketStore × String) bucket,
    (Service.run checkRateLimit (new config) calls).table i = some bucket →
      0 ≤ bucket.refillRate → (((allowed config calls).countP fun call => BucketTable.within i start span
        (config.request call) : ℕ) : ℚ) ≤ bucket.capacity + bucket.refillRate * span := by
    intro i bucket hbucket hrate
    rw [table_run] at hbucket
    rw [allowed_eq]
    exact BucketTable.window_bound hspan hsorted hbucket hrate
  refine ⟨fun cid bucket hbucket hrate => ?_, fun topicStart bucket hbucket hrate => ?_⟩
  · have hwithin : ofClient cid start span = fun call => BucketTable.within (.client, cid) start span
      (config.request call) := by
      funext call
      exact decide_eq_decide.mpr (and_congr (mem_charges_client config call cid).symm Iff.rfl)
    rw [hwithin]
    exact hslot (.client, cid) bucket hbucket hrate
  · have hwithin : ofTopic config topicStart start span =
        fun call => BucketTable.within (.topic, topicStart) start span (config.request call) := by
      funext call
      exact decide_eq_decide.mpr (and_congr (mem_charges_topic config call topicStart).symm Iff.rfl)
    rw [hwithin]
    exact hslot (.topic, topicStart) bucket hbucket hrate

end

theorem denied_costs_nothing_iff (config : RateLimitConfig) (calls : List RateCall)
    (hsorted : calls.Pairwise fun earlier later => earlier.now ≤ later.now) :
    (Service.Throughout checkRateLimit CostsNothing (new config) calls ∧ Independent config calls ↔
        Service.Throughout checkRateLimit Spared (new config) calls) ∧
      ∀ start span, 0 ≤ span → Bounded config calls start span := by
  have hcosts := @Service.Throughout.congr _ _ checkRateLimit CostsNothing Spared costsNothing_iff_spared calls
    (new config)
  refine ⟨⟨fun h => hcosts.mp h.1, fun h => ⟨hcosts.mpr h, independent hsorted h⟩⟩,
    fun start span hspan => bounded hsorted hspan⟩

/-! ## A quiet topic beside a noisy one -/

namespace NoisyTopic

/-- Three tokens to a client, one to the noisy topics, and none to come. -/
def config : RateLimitConfig := ⟨3, 0, [], [("noisy.", ⟨1, 0, [], []⟩)]⟩

def quiet : RateCall := ⟨some "c-1", some "quiet.a", 0⟩

def noisy : RateCall := ⟨some "c-1", some "noisy.a", 0⟩

def bucket : TokenBucket ℚ := ⟨1, 3, 0, 0⟩

theorem quiet_within_bound : ((allowed config [quiet, noisy]).countP (ofClient "c-1" 0 10) : ℚ) ≤ 3 + 0 * 10 :=
  ((denied_costs_nothing_iff config [quiet, noisy] (by decide)).2 0 10 (by decide)).client "c-1" bucket
    (by decide +kernel) (by decide)

/-- The second noisy message is denied, and the quiet one after it too, which is allowed without it. -/
theorem quiet_message_denied : ¬ Independent config [quiet, noisy, noisy, quiet] := by
  intro h
  have hthin : Service.Thinned checkRateLimit (new config) [quiet, noisy, noisy, quiet] [quiet, noisy, quiet] :=
    .keep (.keep (.drop (by decide +kernel) (.keep .nil)))
  exact absurd (h _ hthin) (by decide +kernel)

end NoisyTopic

end RateLimiter

end DaemonEye.Eventbus
