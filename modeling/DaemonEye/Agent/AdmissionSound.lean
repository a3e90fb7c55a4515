import DaemonEye.Agent.CollectorAdmission
import DaemonEye.Detection.CatalogSound
import DaemonEye.Detection.EngineInvariant
import DaemonEye.Detection.EngineSteps
import DaemonEye.Lib.Run

/-!
# Only the authenticated get in

Every step of a registration is one of a few, and each but the last three of
a call that was let in leaves the registry, the engine and the task queue as
they were. Following the calls through any interleaving gives what a call
did from how it ended.
-/

namespace DaemonEye

/-! ## Identities in the log -/

theorem takeBytes_spec (maxBytes : Nat) (chars : List Char) : ∀ offset, offset ≤ maxBytes →
    takeBytes maxBytes offset chars <+: chars ∧
      offset + ((takeBytes maxBytes offset chars).map Char.utf8Size).sum ≤ maxBytes := by
  induction chars with
  | nil =>
    intro offset hoffset
    exact ⟨List.prefix_rfl, by simpa [takeBytes] using hoffset⟩
  | cons c chars ih =>
    intro offset hoffset
    rw [takeBytes]
    by_cases hfits : offset + c.utf8Size ≤ maxBytes
    · obtain ⟨htaken, hsum⟩ := ih _ hfits
      rw [if_pos hfits]
      refine ⟨List.cons_prefix_cons.mpr ⟨rfl, htaken⟩, ?_⟩
      rw [List.map_cons, List.sum_cons]
      omega
    · rw [if_neg hfits]
      exact ⟨List.nil_prefix, by simpa using hoffset⟩

theorem utf8ByteSize_ofList (chars : List Char) :
    (String.ofList chars).utf8ByteSize = (chars.map Char.utf8Size).sum := by
  induction chars with
  | nil => rfl
  | cons c chars ih => simp [String.ofList_cons, ih]

theorem boundedIdentity_bytes (collectorId : String) :
    (boundedIdentity collectorId).utf8ByteSize ≤ maxIdentifierLength := by
  have h := (takeBytes_spec maxIdentifierLength collectorId.toList 0 (Nat.zero_le _)).2
  unfold boundedIdentity
  rw [utf8ByteSize_ofList]
  omega

theorem boundedIdentity_prefix (collectorId : String) :
    (boundedIdentity collectorId).toList <+: collectorId.toList := by
  unfold boundedIdentity
  rw [String.toList_ofList]
  exact (takeBytes_spec maxIdentifierLength collectorId.toList 0 (Nat.zero_le _)).1

/-! ## One step of a call -/

theorem verifySpawnToken_ok {collectorId : String} {issued presented : Option String} {receipt : VerifiedRegistration}
    (h : verifySpawnToken collectorId issued presented = .ok receipt) :
    ∃ token, presented = some token ∧ issued = some token := by
  unfold verifySpawnToken at h
  cases presented with
  | none => cases h
  | some token =>
    cases issued with
    | none => cases h
    | some expected =>
      dsimp only at h
      split at h
      · cases h
      · split at h
        · rename_i heq
          exact ⟨token, rfl, by rw [heq]⟩
        · cases h

namespace Gate

variable {E : Crates}

@[simp] theorem calls_setPhase (gate : Gate E) (call : Nat) (phase : CallPhase) (n : Nat) :
    (gate.setPhase call phase).calls n = if n = call then some phase else gate.calls n := rfl

structure Untouched (before after : Gate E) : Prop where
  records : after.records = before.records
  engine : after.engine = before.engine
  pendingReissue : after.pendingReissue = before.pendingReissue

/-- What an advance comes to, by the phase it starts from. -/
inductive Advanced (gate : Gate E) (call : Nat) (now : SystemTime) : Gate E → Prop
  | rests (hphase : gate.calls call = none ∨ (∃ request, gate.calls call = some (.waiting request)) ∨
      ∃ request result, gate.calls call = some (.done request result)) : Advanced gate call now gate
  | locks (request : RegistrationRequest) (hphase : gate.calls call = some (.waiting request)) :
      Advanced gate call now (({ gate with holder := some call } : Gate E).setPhase call (.locked request))
  | refuses (request : RegistrationRequest) (error : RegistryError)
      (hphase : gate.calls call = some (.waiting request) ∨ gate.calls call = some (.locked request) ∨
        gate.calls call = some (.verified request)) :
      Advanced gate call now (gate.refuse call request error)
  | verifies (request : RegistrationRequest) (token : String) (hphase : gate.calls call = some (.locked request))
      (hpresented : request.spawnToken = some token) (hissued : gate.tokens.get request.collectorId = some token) :
      Advanced gate call now (gate.setPhase call (.verified request))
  | enters (request : RegistrationRequest) (hphase : gate.calls call = some (.verified request))
      (hdescriptor : request.descriptor = none) :
      Advanced gate call now (gate.setPhase call (.entered request))
  | registers (request : RegistrationRequest) (wire : Eventbus.SchemaDescriptor) (change : CatalogChange)
      (engine : DetectionEngine E) (hphase : gate.calls call = some (.verified request))
      (hdescriptor : request.descriptor = some wire)
      (hengine : gate.engine.registerCollector ⟨request.collectorId⟩ (toProtoDescriptor wire) = (engine, .ok change)) :
      Advanced gate call now (({ gate with engine } : Gate E).setPhase call (.entered request))
  | notes (request : RegistrationRequest) (hphase : gate.calls call = some (.entered request)) :
      Advanced gate call now (({ gate with
        pendingReissue := insert request.collectorId gate.pendingReissue } : Gate E).setPhase call (.noted request))
  | ends (request : RegistrationRequest) (hphase : gate.calls call = some (.noted request)) :
      Advanced gate call now (({ gate with
        records := gate.records.insert request.collectorId (.new request now)
        holder := none } : Gate E).setPhase call (.done request (.ok (.accept (.new request now)))))
  | records (request : RegistrationRequest) (error : RegistryError)
      (hphase : gate.calls call = some (.refused request error)) :
      Advanced gate call now
        ((gate.recordRegistrationRejection request.collectorId error).setPhase call (.done request (.error error)))

theorem advance_cases (gate : Gate E) (call : Nat) (now : SystemTime) :
    Advanced gate call now (gate.advance call now) := by
  unfold advance
  cases hphase : gate.calls call with
  | none => exact .rests (.inl hphase)
  | some phase =>
    cases phase with
    | waiting request =>
      dsimp only
      split
      · exact .rests (.inr (.inl ⟨request, hphase⟩))
      · split
        · exact .refuses request _ (.inl hphase)
        · exact .locks request hphase
    | locked request =>
      dsimp only
      split
      · exact .refuses request _ (.inr (.inl hphase))
      · rename_i receipt hverify
        obtain ⟨token, hpresented, hissued⟩ := verifySpawnToken_ok hverify
        exact .verifies request token hphase hpresented hissued
    | verified request =>
      dsimp only
      split
      · rename_i hdescriptor
        exact .enters request hphase hdescriptor
      · rename_i wire hdescriptor
        split
        · exact .refuses request _ (.inr (.inr hphase))
        · rename_i engine change hengine
          exact .registers request wire change engine hphase hdescriptor hengine
    | entered request => exact .notes request hphase
    | noted request => exact .ends request hphase
    | refused request error => exact .records request error hphase
    | done request result => exact .rests (.inr (.inr ⟨request, result, hphase⟩))

/-! ## Tokens -/

def tokenAfter (collectorId : String) (held : Option String) : GateEvent → Option String
  | .issue issuedFor token fault =>
    if issuedFor = collectorId ∧ SpawnTokenStore.usable issuedFor = true ∧ fault = none then some token else held
  | .revoke revoked => if revoked = collectorId then none else held
  | _ => held

def lastIssued (events : List GateEvent) (collectorId : String) : Option String :=
  events.foldl (tokenAfter collectorId) none

theorem Advanced.tokens {gate after : Gate E} {call : Nat} {now : SystemTime} (h : Advanced gate call now after) :
    after.tokens = gate.tokens := by
  cases h <;> rfl

theorem tokens_register (gate : Gate E) (call : Nat) (request : RegistrationRequest) :
    (gate.register call request).tokens = gate.tokens := by
  unfold register
  split
  · rfl
  · split <;> rfl

theorem tokens_step (gate : Gate E) (event : GateEvent) (collectorId : String) :
    (gate.step event).tokens.get collectorId = tokenAfter collectorId (gate.tokens.get collectorId) event := by
  cases event with
  | issue issuedFor token fault =>
    unfold step SpawnTokenStore.issue tokenAfter
    by_cases husable : SpawnTokenStore.usable issuedFor = true
    · cases fault with
      | none => simp [husable]
      | some message => simp [husable]
    · simp [husable]
  | revoke revoked =>
    exact OrdMap.get_remove gate.tokens revoked collectorId
  | register call request =>
    change (gate.register call request).tokens.get collectorId = _
    rw [tokens_register]
    rfl
  | advance call now =>
    change (gate.advance call now).tokens.get collectorId = _
    rw [(gate.advance_cases call now).tokens]
    rfl
  | deregister removed =>
    unfold step deregister
    dsimp only
    split <;> rfl

def reach (engine : DetectionEngine E) (events : List GateEvent) : Gate E := runFrom step (start engine) events

variable {engine : DetectionEngine E} {events : List GateEvent} {n : Nat}

theorem reach_snoc (event : GateEvent) : reach engine (events ++ [event]) = (reach engine events).step event :=
  runFrom_snoc step (start engine) events event

theorem reach_tokens (collectorId : String) :
    (reach engine events).tokens.get collectorId = lastIssued events collectorId := by
  induction events using List.reverseRecOn with
  | nil => rfl
  | append_singleton events event ih =>
    unfold lastIssued at ih ⊢
    rw [reach_snoc, tokens_step, ih, List.foldl_append]
    rfl

/-! ## The calls of a run -/

def Authenticated (engine : DetectionEngine E) (events : List GateEvent) (n : Nat)
    (request : RegistrationRequest) : Prop :=
  ∃ before now after token, events = before ++ GateEvent.advance n now :: after ∧
    (reach engine before).calls n = some (.locked request) ∧ request.spawnToken = some token ∧
    lastIssued before request.collectorId = some token

/-- No step of the call has touched what is shared. -/
def Quiet (engine : DetectionEngine E) (events : List GateEvent) (n : Nat) : Prop :=
  ∀ before event after, events = before ++ event :: after → event.caller = some n →
    Untouched (reach engine before) (reach engine (before ++ [event]))

/-- No step of the call, but the one after `before = at`, has written to the rejection log. -/
def SilentBut (skip : Option (List GateEvent)) (engine : DetectionEngine E) (events : List GateEvent)
    (n : Nat) : Prop :=
  ∀ before event after, events = before ++ event :: after → event.caller = some n → skip ≠ some before →
    (reach engine (before ++ [event])).rejections = (reach engine before).rejections

/-- One step of the call wrote one record, of its bounded identity and the gate that refused it. -/
def Recorded (engine : DetectionEngine E) (events : List GateEvent) (n : Nat) (request : RegistrationRequest)
    (error : RegistryError) : Prop :=
  ∃ before now after, events = before ++ GateEvent.advance n now :: after ∧
    (reach engine before).calls n = some (.refused request error) ∧
    (reach engine (before ++ [GateEvent.advance n now])).rejections = (reach engine before).rejections.record E.audit
      (.registration (boundedIdentity request.collectorId) (gateFor error)) ∧
    SilentBut (some before) engine events n

/-- What a call has done by the time it is in a phase. -/
def Trail (engine : DetectionEngine E) (events : List GateEvent) (n : Nat) : Option CallPhase → Prop
  | none | some (.waiting _) | some (.locked _) | some (.refused ..) =>
    Quiet engine events n ∧ SilentBut none engine events n
  | some (.verified request) =>
    Quiet engine events n ∧ SilentBut none engine events n ∧ Authenticated engine events n request
  | some (.entered request) | some (.noted request) | some (.done request (.ok _)) =>
    Authenticated engine events n request
  | some (.done request (.error error)) => Quiet engine events n ∧ Recorded engine events n request error

theorem Authenticated.snoc {request : RegistrationRequest} (h : Authenticated engine events n request)
    (event : GateEvent) : Authenticated engine (events ++ [event]) n request := by
  obtain ⟨before, now, after, token, rfl, hphase, hpresented, hissued⟩ := h
  exact ⟨before, now, after ++ [event], token, by simp, hphase, hpresented, hissued⟩

theorem Quiet.snoc (h : Quiet engine events n) {event : GateEvent}
    (hevent : event.caller = some n → Untouched (reach engine events) ((reach engine events).step event)) :
    Quiet engine (events ++ [event]) n := by
  intro before last after hcut hcaller
  rcases cut_snoc hcut with ⟨rfl, rfl, -⟩ | ⟨rest, -, hrest⟩
  · rw [reach_snoc]
    exact hevent hcaller
  · exact h before last rest hrest hcaller

theorem SilentBut.snoc {skip : Option (List GateEvent)} (h : SilentBut skip engine events n) {event : GateEvent}
    (hevent : event.caller = some n → skip ≠ some events →
      ((reach engine events).step event).rejections = (reach engine events).rejections) :
    SilentBut skip engine (events ++ [event]) n := by
  intro before last after hcut hcaller hskip
  rcases cut_snoc hcut with ⟨rfl, rfl, -⟩ | ⟨rest, -, hrest⟩
  · rw [reach_snoc]
    exact hevent hcaller hskip
  · exact h before last rest hrest hcaller hskip

theorem Recorded.snoc {request : RegistrationRequest} {error : RegistryError}
    (h : Recorded engine events n request error) {event : GateEvent}
    (hevent : event.caller = some n → ((reach engine events).step event).rejections =
      (reach engine events).rejections) :
    Recorded engine (events ++ [event]) n request error := by
  obtain ⟨before, now, after, hcut, hphase, hrecord, hsilent⟩ := h
  refine ⟨before, now, after ++ [event], by simp [hcut], hphase, hrecord, ?_⟩
  exact hsilent.snoc fun hcaller _ => hevent hcaller

theorem Trail.rest {phase : Option CallPhase} (h : Trail engine events n phase) {event : GateEvent}
    (hevent : event.caller = some n → (reach engine events).step event = reach engine events) :
    Trail engine (events ++ [event]) n phase := by
  have hquiet : Quiet engine events n → Quiet engine (events ++ [event]) n := by
    intro hquiet
    apply hquiet.snoc
    intro hcaller
    rw [hevent hcaller]
    exact ⟨rfl, rfl, rfl⟩
  have hsame : event.caller = some n →
      ((reach engine events).step event).rejections = (reach engine events).rejections := by
    intro hcaller
    rw [hevent hcaller]
  have hsilent : SilentBut none engine events n → SilentBut none engine (events ++ [event]) n :=
    fun hsilent => hsilent.snoc fun hcaller _ => hsame hcaller
  match phase, h with
  | none, h => exact ⟨hquiet h.1, hsilent h.2⟩
  | some (.waiting _), h => exact ⟨hquiet h.1, hsilent h.2⟩
  | some (.locked _), h => exact ⟨hquiet h.1, hsilent h.2⟩
  | some (.refused ..), h => exact ⟨hquiet h.1, hsilent h.2⟩
  | some (.verified _), h => exact ⟨hquiet h.1, hsilent h.2.1, h.2.2.snoc event⟩
  | some (.entered _), h => exact Authenticated.snoc h event
  | some (.noted _), h => exact Authenticated.snoc h event
  | some (.done _ (.ok _)), h => exact Authenticated.snoc h event
  | some (.done _ (.error _)), h => exact ⟨hquiet h.1, h.2.snoc hsame⟩

theorem Advanced.calls_ne {gate after : Gate E} {call : Nat} {now : SystemTime} (h : Advanced gate call now after)
    (hne : n ≠ call) : after.calls n = gate.calls n := by
  cases h with
  | rests hphase => rfl
  | locks request hphase => exact if_neg hne
  | refuses request error hphase => exact if_neg hne
  | verifies request token hphase hpresented hissued => exact if_neg hne
  | enters request hphase hdescriptor => exact if_neg hne
  | registers request wire change engine hphase hdescriptor hengine => exact if_neg hne
  | notes request hphase => exact if_neg hne
  | ends request hphase => exact if_neg hne
  | records request error hphase => exact if_neg hne

theorem calls_other {gate : Gate E} {event : GateEvent} (h : event.caller ≠ some n) :
    (gate.step event).calls n = gate.calls n := by
  cases event with
  | issue collectorId token fault => rfl
  | revoke collectorId => rfl
  | register call request =>
    have hne : n ≠ call := fun heq => h (congrArg some heq.symm)
    unfold step register
    dsimp only
    split
    · rfl
    · split
      · exact if_neg hne
      · exact if_neg hne
  | advance call now => exact (gate.advance_cases call now).calls_ne fun heq => h (congrArg some heq.symm)
  | deregister collectorId =>
    unfold step deregister
    dsimp only
    split <;> rfl

theorem quietly {after : Gate E} {event : GateEvent} (hafter : (reach engine events).step event = after)
    (hquiet : Quiet engine events n) (hsilent : SilentBut none engine events n)
    (huntouched : Untouched (reach engine events) after)
    (hrejections : after.rejections = (reach engine events).rejections) :
    Quiet engine (events ++ [event]) n ∧ SilentBut none engine (events ++ [event]) n := by
  constructor
  · apply hquiet.snoc
    intro _
    rw [hafter]
    exact huntouched
  · apply hsilent.snoc
    intro _ _
    rw [hafter]
    exact hrejections

theorem trail_advance {now : SystemTime} (h : Trail engine events n ((reach engine events).calls n)) {after : Gate E}
    (hafter : (reach engine events).step (.advance n now) = after)
    (hadvanced : Advanced (reach engine events) n now after) :
    Trail engine (events ++ [GateEvent.advance n now]) n (after.calls n) := by
  cases hadvanced with
  | rests hphase => exact h.rest fun _ => hafter
  | locks request hphase =>
    rw [hphase] at h
    rw [calls_setPhase, if_pos rfl]
    exact quietly hafter h.1 h.2 ⟨rfl, rfl, rfl⟩ rfl
  | refuses request error hphase =>
    have hbefore : Quiet engine events n ∧ SilentBut none engine events n := by
      rcases hphase with hphase | hphase | hphase
      · rw [hphase] at h
        exact h
      · rw [hphase] at h
        exact h
      · rw [hphase] at h
        exact ⟨h.1, h.2.1⟩
    unfold refuse
    rw [calls_setPhase, if_pos rfl]
    exact quietly hafter hbefore.1 hbefore.2 ⟨rfl, rfl, rfl⟩ rfl
  | verifies request token hphase hpresented hissued =>
    rw [hphase] at h
    rw [calls_setPhase, if_pos rfl]
    obtain ⟨hquiet, hsilent⟩ := quietly hafter h.1 h.2 ⟨rfl, rfl, rfl⟩ rfl
    rw [reach_tokens] at hissued
    exact ⟨hquiet, hsilent, events, now, [], token, rfl, hphase, hpresented, hissued⟩
  | enters request hphase hdescriptor =>
    rw [hphase] at h
    rw [calls_setPhase, if_pos rfl]
    exact h.2.2.snoc _
  | registers request wire change engine hphase hdescriptor hengine =>
    rw [hphase] at h
    rw [calls_setPhase, if_pos rfl]
    exact h.2.2.snoc _
  | notes request hphase =>
    rw [hphase] at h
    rw [calls_setPhase, if_pos rfl]
    exact Authenticated.snoc h _
  | ends request hphase =>
    rw [hphase] at h
    rw [calls_setPhase, if_pos rfl]
    exact Authenticated.snoc h _
  | records request error hphase =>
    rw [hphase] at h
    rw [calls_setPhase, if_pos rfl]
    constructor
    · apply Quiet.snoc h.1
      intro _
      rw [hafter]
      exact ⟨rfl, rfl, rfl⟩
    · refine ⟨events, now, [], rfl, hphase, ?_, ?_⟩
      · rw [reach_snoc, hafter]
        rfl
      · -- the steps before this one were silent, and this one is the one named
        intro before event rest hcut hcaller hskip
        rcases cut_snoc hcut with ⟨rfl, -, -⟩ | ⟨rest', -, hrest⟩
        · exact absurd rfl hskip
        · exact h.2 before event rest' hrest hcaller (by simp)

theorem trail_register {request : RegistrationRequest} (h : Trail engine events n ((reach engine events).calls n)) :
    Trail engine (events ++ [.register n request]) n (((reach engine events).step (.register n request)).calls n) := by
  cases hphase : (reach engine events).calls n with
  | some phase =>
    have hsame : (reach engine events).step (.register n request) = reach engine events := by
      unfold step register
      simp only [hphase]
    rw [hsame]
    exact h.rest fun _ => hsame
  | none =>
    rw [hphase] at h
    cases hvalid : validateRegistration request with
    | error error =>
      have hafter : (reach engine events).step (.register n request) =
          (reach engine events).setPhase n (.refused request error) := by
        unfold step register
        simp only [hphase, hvalid]
      rw [hafter, calls_setPhase, if_pos rfl]
      exact quietly hafter h.1 h.2 ⟨rfl, rfl, rfl⟩ rfl
    | ok _ =>
      have hafter : (reach engine events).step (.register n request) =
          (reach engine events).setPhase n (.waiting request) := by
        unfold step register
        simp only [hphase, hvalid]
      rw [hafter, calls_setPhase, if_pos rfl]
      exact quietly hafter h.1 h.2 ⟨rfl, rfl, rfl⟩ rfl

theorem trail (engine : DetectionEngine E) (events : List GateEvent) (n : Nat) :
    Trail engine events n ((reach engine events).calls n) := by
  induction events using List.reverseRecOn with
  | nil =>
    constructor
    · intro before event after hcut
      simp at hcut
    · intro before event after hcut
      simp at hcut
  | append_singleton events event ih =>
    rw [reach_snoc]
    by_cases hcaller : event.caller = some n
    · cases event with
      | issue collectorId token fault => cases hcaller
      | revoke collectorId => cases hcaller
      | deregister collectorId => cases hcaller
      | register call request =>
        obtain rfl := Option.some.inj hcaller
        exact trail_register ih
      | advance call now =>
        obtain rfl := Option.some.inj hcaller
        exact trail_advance ih rfl ((reach engine events).advance_cases call now)
    · rw [calls_other hcaller]
      exact ih.rest fun h => absurd h hcaller

/-! ## What the catalog takes from a call -/

structure OwnOnly (request : RegistrationRequest) (before after : SchemaCatalog) : Prop where
  stored : ∀ wire ∈ request.descriptor, wire.collectorId = request.collectorId ∧
    after.descriptors.get request.collectorId = some { toProtoDescriptor wire with conformanceResults := [] }
  descriptors : ∀ other, other ≠ request.collectorId → after.descriptors.get other = before.descriptors.get other
  owners : ∀ table, after.owners.get table ≠ before.owners.get table →
    after.owners.get table = some request.collectorId ∨ before.owners.get table = some request.collectorId
  conformance : ∀ entry : ConformanceKey, entry.1 ≠ request.collectorId →
    (entry ∈ after.conformance ↔ entry ∈ before.conformance)

theorem ownOnly_store {request : RegistrationRequest} {wire : Eventbus.SchemaDescriptor} {catalog : SchemaCatalog}
    (hdescriptor : request.descriptor = some wire)
    (hidentity : (toProtoDescriptor wire).collectorId = request.collectorId) :
    OwnOnly request catalog (catalog.store (toProtoDescriptor wire)) where
  stored := by
    intro other hother
    obtain rfl := Option.some.inj (hdescriptor.symm.trans hother)
    refine ⟨hidentity, ?_⟩
    rw [SchemaCatalog.store_descriptors, OrdMap.get_insert, if_pos hidentity]
  descriptors := by
    intro other hother
    rw [SchemaCatalog.store_descriptors, OrdMap.get_insert, if_neg fun heq => hother (heq.symm.trans hidentity)]
  owners := by
    intro table hchanged
    rw [SchemaCatalog.store_owners, hidentity] at hchanged ⊢
    split at hchanged
    · rename_i hdeclared
      rw [if_pos hdeclared]
      exact .inl rfl
    · -- an owner that was dropped was this collector
      cases howner : catalog.owners.get table with
      | none => simp [howner] at hchanged
      | some owner =>
        by_cases hown : owner = request.collectorId
        · exact .inr (by rw [hown])
        · simp [howner, hown] at hchanged
  conformance := by
    intro entry hentry
    rw [SchemaCatalog.mem_store_conformance]
    simp [hidentity, hentry]

theorem catalog_registered {engine after : DetectionEngine E} {request : RegistrationRequest}
    {wire : Eventbus.SchemaDescriptor} {change : CatalogChange} (hdescriptor : request.descriptor = some wire)
    (h : engine.registerCollector ⟨request.collectorId⟩ (toProtoDescriptor wire) = (after, .ok change)) :
    OwnOnly request engine.catalog after.catalog := by
  by_cases haccepts : engine.catalog.Accepts ⟨request.collectorId⟩ (toProtoDescriptor wire)
  · rcases engine.registerCollector_cases ⟨request.collectorId⟩ (toProtoDescriptor wire) with ⟨error, -, herror⟩ |
      ⟨change', -, hok⟩
    · rw [herror] at h
      cases h
    · rw [hok] at h
      obtain ⟨rfl, -⟩ := Prod.mk.inj h
      rw [SchemaCatalog.register_accepted haccepts]
      rw [(engine.registered_frame _ _).catalog]
      exact ownOnly_store hdescriptor haccepts.1
  · obtain ⟨-, error, herror⟩ := SchemaCatalog.register_refused haccepts
    rcases engine.registerCollector_cases ⟨request.collectorId⟩ (toProtoDescriptor wire) with ⟨other, -, hrefused⟩ |
      ⟨change', hok, -⟩
    · rw [hrefused] at h
      cases h
    · rw [herror] at hok
      cases hok

/-! ## Runs of the gate -/

structure Guarded (engine : DetectionEngine E) (events : List GateEvent) : Prop where
  authenticated : ∀ n request response, (reach engine events).calls n = some (.done request (.ok response)) →
    Authenticated engine events n request
  effects : ∀ before event after, events = before ++ event :: after →
    Untouched (reach engine before) (reach engine (before ++ [event])) ∨
      (∃ collectorId, event = .deregister collectorId) ∨
    ∃ n now request, event = .advance n now ∧ Authenticated engine before n request ∧
      ((reach engine before).engine.catalog = (reach engine (before ++ [event])).engine.catalog ∨
        OwnOnly request (reach engine before).engine.catalog (reach engine (before ++ [event])).engine.catalog)
  refused : ∀ n request error, (reach engine events).calls n = some (.done request (.error error)) →
    Quiet engine events n ∧ Recorded engine events n request error
  bounded : ∀ collectorId, (boundedIdentity collectorId).utf8ByteSize ≤ maxIdentifierLength ∧
    (boundedIdentity collectorId).toList <+: collectorId.toList

theorem advance_effect (now : SystemTime) {after : Gate E} (hadvanced : Advanced (reach engine events) n now after) :
    Untouched (reach engine events) after ∨ ∃ request, Authenticated engine events n request ∧
      ((reach engine events).engine.catalog = after.engine.catalog ∨
        OwnOnly request (reach engine events).engine.catalog after.engine.catalog) := by
  have htrail := trail engine events n
  cases hadvanced with
  | rests hphase => exact .inl ⟨rfl, rfl, rfl⟩
  | locks request hphase => exact .inl ⟨rfl, rfl, rfl⟩
  | refuses request error hphase => exact .inl ⟨rfl, rfl, rfl⟩
  | verifies request token hphase hpresented hissued => exact .inl ⟨rfl, rfl, rfl⟩
  | enters request hphase hdescriptor => exact .inl ⟨rfl, rfl, rfl⟩
  | records request error hphase => exact .inl ⟨rfl, rfl, rfl⟩
  | registers request wire change engine hphase hdescriptor hengine =>
    rw [hphase] at htrail
    exact .inr ⟨request, htrail.2.2, .inr (catalog_registered hdescriptor hengine)⟩
  | notes request hphase =>
    rw [hphase] at htrail
    exact .inr ⟨request, htrail, .inl rfl⟩
  | ends request hphase =>
    rw [hphase] at htrail
    exact .inr ⟨request, htrail, .inl rfl⟩

theorem register_untouched (gate : Gate E) (call : Nat) (request : RegistrationRequest) :
    Untouched gate (gate.register call request) := by
  unfold register
  split
  · exact ⟨rfl, rfl, rfl⟩
  · split
    · exact ⟨rfl, rfl, rfl⟩
    · exact ⟨rfl, rfl, rfl⟩

/-- In any interleaving of issues, revocations, registrations and deregistrations only a
registration that was let in by its own token has an effect, and a refused one leaves a record. -/
theorem only_authenticated_registers (engine : DetectionEngine E) (events : List GateEvent) :
    Guarded engine events where
  authenticated := by
    intro n request response hdone
    have htrail := trail engine events n
    rw [hdone] at htrail
    exact htrail
  effects := by
    intro before event after hcut
    rw [reach_snoc]
    cases event with
    | issue collectorId token fault => exact .inl ⟨rfl, rfl, rfl⟩
    | revoke collectorId => exact .inl ⟨rfl, rfl, rfl⟩
    | register call request => exact .inl (register_untouched _ call request)
    | deregister collectorId => exact .inr (.inl ⟨collectorId, rfl⟩)
    | advance call now =>
      rcases advance_effect now ((reach engine before).advance_cases call now) with huntouched |
        ⟨request, hin, hcatalog⟩
      · exact .inl huntouched
      · exact .inr (.inr ⟨call, now, request, rfl, hin, hcatalog⟩)
  refused := by
    intro n request error hdone
    have htrail := trail engine events n
    rw [hdone] at htrail
    exact htrail
  bounded := fun collectorId => ⟨boundedIdentity_bytes collectorId, boundedIdentity_prefix collectorId⟩

/-- The token of another spawn is refused and recorded; then the issued one is let in. -/
example :
    let engine : DetectionEngine DetectionEngine.Shell.crates := .withConfig DetectionEngine.Shell.config
    let token := String.ofList (List.replicate 64 'a')
    let request : RegistrationRequest :=
      ⟨"procmond", "procmond", "localhost", none, none, [], [], none, none,
        some (String.ofList (List.replicate 64 'b'))⟩
    let gate := reach engine [.issue "procmond" token none, .register 0 request, .advance 0 0, .advance 0 0,
      .advance 0 0,
      .register 1 { request with spawnToken := some token }, .advance 1 0, .advance 1 0, .advance 1 0, .advance 1 0,
      .advance 1 0]
    gate.records.keys = ["procmond"] ∧ gate.pendingReissue = {"procmond"} ∧
      gate.rejections.records.map RejectionRecord.reason = [.registration "procmond" .tokenMismatch] := by
  decide +kernel

end Gate

end DaemonEye
