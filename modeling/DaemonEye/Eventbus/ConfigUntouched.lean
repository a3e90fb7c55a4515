import DaemonEye.Eventbus.ConfigManager

/-!
# What a refused update leaves

An update that is refused, or only validates, should leave the cache, the
snapshot and the file of its collector as they are. It does so except in three
cases, which are told apart by the state before it and by what it meets.
-/

namespace DaemonEye.Eventbus

namespace ConfigManager

open Effect

variable {toml : Toml} {m₀ : ConfigManager} {id text : String} {config : CollectorConfig} {env : DiskAnswers}

theorem tempPath_ne (m : ConfigManager) (id : String) : m.tempPath id ≠ m.configPath id := by
  intro heq
  have hlength := congrArg String.length heq
  simp [tempPath] at hlength

theorem file_writeTemp (m : ConfigManager) (id text : String) :
    (m.writeFile (m.tempPath id) text).files.get (m.configPath id) = m.files.get (m.configPath id) := by
  rw [writeFile, OrdMap.get_insert, if_neg (m.tempPath_ne id)]

def OnlyFiles (m₀ m : ConfigManager) : Prop := ∃ files, m = { m₀ with files }

theorem spec_ofExcept {α : Type} {x : Except ConfigManagerError α} {P : ConfigManager → Prop}
    {Q : α → ConfigManager → Prop}
    {E : ConfigManagerError → ConfigManager → Prop} (hok : ∀ a, x = .ok a → ∀ m, P m → Q a m)
    (herror : ∀ e, x = .error e → ∀ m, P m → E e m) : Spec P (MonadExcept.ofExcept x : ConfigOp α) Q E := by
  cases x with
  | ok a => exact fun m hm => hok a rfl m hm
  | error e => exact fun m hm => herror e rfl m hm

/-! ## A write that fails -/

/-- Everything up to the rename succeeds, and the file is removed. -/
def losesFile (toml : Toml) (m : ConfigManager) (id : String) (config : CollectorConfig) (env : DiskAnswers) : Bool :=
  (rendered toml config env).toOption.isSome && env.write.isNone && m.windows && m.files.contains (m.configPath id) &&
    env.remove.isNone && env.rename.isSome

theorem spec_writeTemp : Spec (fun m => m = m₀) (writeTemp id text env)
    (fun _ m => env.write = none ∧ m = m₀.writeFile (m₀.tempPath id) text)
    (fun _ m => env.write.isNone = false ∧ OnlyFiles m₀ m ∧
      m.files.get (m₀.configPath id) = m₀.files.get (m₀.configPath id)) := by
  unfold writeTemp
  cases env.write with
  | none => exact spec_modify fun m hm => by subst hm; exact ⟨rfl, rfl⟩
  | some message =>
    refine Spec.bind (spec_modify (Q := fun _ m =>
      OnlyFiles m₀ m ∧ m.files.get (m₀.configPath id) = m₀.files.get (m₀.configPath id)) fun m hm => ?_)
      fun _ => spec_throw fun m hm => ⟨rfl, hm⟩
    subst hm
    cases env.left with
    | none => exact ⟨⟨m.files, rfl⟩, rfl⟩
    | some text => exact ⟨⟨_, rfl⟩, m.file_writeTemp id text⟩

theorem spec_clearWay : Spec (fun m => m = m₀) (clearWay id env)
    (fun _ m => OnlyFiles m₀ m ∧ m.files.get (m₀.tempPath id) = m₀.files.get (m₀.tempPath id) ∧
      m.files.get (m₀.configPath id) =
        if m₀.windows && m₀.files.contains (m₀.configPath id) && env.remove.isNone then none
        else m₀.files.get (m₀.configPath id))
    (fun _ m => m = m₀ ∧ env.remove.isNone = false) := by
  refine spec_get_bind fun m hm => ?_
  subst hm
  refine spec_ite (fun hway => ?_) fun hway => ?_
  · cases env.remove with
    | none =>
      refine spec_modify fun m' hm' => ?_
      subst hm'
      refine ⟨⟨_, rfl⟩, ?_, ?_⟩
      · simp [removeFile, (m'.tempPath_ne id).symm]
      · simp only [hway, Option.isNone_none, Bool.and_self, if_true]
        simp [removeFile]
    | some message => exact spec_throw fun m' hm' => ⟨hm', rfl⟩
  · refine spec_pure fun m' hm' => ?_
    subst hm'
    refine ⟨⟨_, rfl⟩, rfl, ?_⟩
    rw [if_neg (by simp [eq_false_of_ne_true hway])]

theorem spec_renameTemp (htemp : m₀.files.get (m₀.tempPath id) = some text) : Spec (fun m => m = m₀) (renameTemp id env)
    (fun _ m => OnlyFiles m₀ m) (fun _ m => m = m₀ ∧ env.rename.isSome = true) := by
  refine spec_get_bind fun m hm => ?_
  subst hm
  rw [htemp]
  cases env.rename with
  | none => exact spec_modify fun m' hm' => by subst hm'; exact ⟨_, rfl⟩
  | some message => exact spec_throw fun m' hm' => ⟨hm', rfl⟩

theorem spec_persistConfig : Spec (fun m => m = m₀) (persistConfig toml id config env) (fun _ m => OnlyFiles m₀ m)
    (fun _ m => OnlyFiles m₀ m ∧
      (m.files.get (m₀.configPath id) = m₀.files.get (m₀.configPath id) ↔
        m₀.losesFile toml id config env = false)) := by
  refine Spec.bind (R := fun text m => rendered toml config env = .ok text ∧ m = m₀)
    (spec_ofExcept (fun text hrendered m hm => ⟨hrendered, hm⟩) fun error hrendered m hm => ?_) fun text => ?_
  · subst hm
    exact ⟨⟨_, rfl⟩, iff_of_true rfl (by simp [losesFile, hrendered, Except.toOption])⟩
  rintro m ⟨hrendered, rfl⟩
  refine Spec.bind (spec_writeTemp.imp (fun _ hm => hm) (fun _ _ hm => hm) fun error m' hm' => ?_) (fun _ => ?_) m rfl
  · obtain ⟨hwrite, hfiles, hsame⟩ := hm'
    exact ⟨hfiles, iff_of_true hsame (by simp [losesFile, hwrite])⟩
  rintro m₁ ⟨hwrite, rfl⟩
  have hthere : (m.writeFile (m.tempPath id) text).files.contains (m.configPath id) = m.files.contains
    (m.configPath id) := by
    rw [OrdMap.contains, file_writeTemp, OrdMap.contains]
  refine Spec.bind (spec_clearWay.imp (fun _ hm => hm) (fun _ _ hm => hm) fun error m' hm' => ?_) (fun _ => ?_) _ rfl
  · obtain ⟨rfl, hremove⟩ := hm'
    exact ⟨⟨_, rfl⟩, iff_of_true (m.file_writeTemp id text) (by simp [losesFile, hremove])⟩
  rintro m₂ ⟨⟨files, rfl⟩, htemp, hfile⟩
  have htext : ({ m.writeFile (m.tempPath id) text with files } : ConfigManager).files.get
    (m.tempPath id) = some text :=
    htemp.trans ((OrdMap.get_insert ..).trans (if_pos rfl))
  refine (spec_renameTemp htext).imp (fun _ hm => hm) (fun _ m' hm' => ?_) (fun error m' hm' => ?_) _ rfl
  · obtain ⟨files', rfl⟩ := hm'
    exact ⟨files', rfl⟩
  · obtain ⟨rfl, hrename⟩ := hm'
    refine ⟨⟨files, rfl⟩, ?_⟩
    have hfile' : files.get (m.configPath id) =
        if m.windows && m.files.contains (m.configPath id) && env.remove.isNone then none
        else m.files.get (m.configPath id) := by
      have hfile'' := hfile
      simp only [show (m.writeFile (m.tempPath id) text).configPath id = m.configPath id from rfl, hthere,
        file_writeTemp] at hfile''
      exact hfile''
    have hloses : m.losesFile toml id config env =
        (m.windows && m.files.contains (m.configPath id) && env.remove.isNone) := by
      simp [losesFile, hrendered, hwrite, hrename, Except.toOption]
    rw [hloses]
    change files.get (m.configPath id) = m.files.get (m.configPath id) ↔ _
    rw [hfile']
    split_ifs with hlost
    · have hthere : m.files.contains (m.configPath id) = true := by simp_all
      obtain ⟨text', htext'⟩ := OrdMap.contains_iff.mp hthere
      exact iff_of_false (by simp [htext']) (by simp [hlost])
    · exact iff_of_true rfl (eq_false_of_ne_true hlost)

/-! ## A rollback that fails -/

theorem spec_rollbackConfig_none (h : m₀.snapshots.get id = none) :
    Spec (fun m => m = m₀) (rollbackConfig toml id env) (fun _ _ => False) (fun _ m => m = m₀) := by
  refine spec_get_bind fun m hm => ?_
  subst hm
  rw [h]
  exact spec_throw fun m' hm' => hm'

theorem spec_rollbackConfig : Spec (fun m => m = m₀) (rollbackConfig toml id env) (fun _ m => m.snapshots.get id = none)
    (fun _ m => m.snapshots.get id = none) := by
  refine spec_get_bind fun m hm => ?_
  subst hm
  cases hsnapshot : m.snapshots.get id with
  | none => exact spec_throw fun m' hm' => by rw [hm', hsnapshot]
  | some snapshot =>
    refine Spec.bind (spec_modify (Q := fun _ m' => m' = { m with snapshots := m.snapshots.remove id }) fun m' hm' =>
      ?_) fun _ => ?_
    · rw [hm']
    refine Spec.bind (spec_persistConfig.imp (fun _ hm => hm) (fun _ _ hm => hm) fun error m' hm' => ?_) fun _ => ?_
    · obtain ⟨⟨files, rfl⟩, -⟩ := hm'
      simp
    refine Spec.bind (R := fun _ m' => m'.snapshots.get id = none) (spec_modify fun m' hm' => ?_) fun _ =>
      spec_pure fun _ hm => hm
    obtain ⟨files, rfl⟩ := hm'
    simp [cache]

/-! ## A refused update -/

structure Untouched (m m' : ConfigManager) (id : String) : Prop where
  cached : m'.configs.get id = m.configs.get id
  snapshot : m'.snapshots.get id = m.snapshots.get id
  file : m'.files.get (m.configPath id) = m.files.get (m.configPath id)

/-- The configuration is cached, or cannot be loaded; a rollback after a failed validation finds no snapshot; and the
file is not removed for a rename that fails. -/
structure Harmless (toml : Toml) (m : ConfigManager) (id : String) (changes : List (String × JsonValue))
    (validateOnly rollbackOnFailure : Bool) (env : DiskAnswers) : Prop where
  cached : m.configs.contains id = true ∨ ∃ error, m.loadable toml id env = .error error
  kept : rollbackOnFailure = true → ∀ current config error, m.configs.get id = some current →
    applyChanges changes current = .ok config → m.validateConfig env.updated config = .error error →
      m.snapshots.get id = none
  replaced : validateOnly = false → ∀ current config, m.configs.get id = some current →
    applyChanges changes current = .ok config → m.validateConfig env.updated config = .ok () →
      m.losesFile toml id config env = false

theorem untouched_self (m : ConfigManager) (id : String) : Untouched m m id := ⟨rfl, rfl, rfl⟩

section
variable {changes : List (String × JsonValue)} {validateOnly rollbackOnFailure : Bool} {current : CollectorConfig}

theorem spec_updateFrom (hcurrent : m₀.configs.get id = some current) :
    Spec (fun m => m = m₀) (updateFrom toml id changes validateOnly rollbackOnFailure env current)
      (fun _ m => validateOnly = true →
        (Untouched m₀ m id ↔ Harmless toml m₀ id changes validateOnly rollbackOnFailure env))
      (fun _ m => Untouched m₀ m id ↔ Harmless toml m₀ id changes validateOnly rollbackOnFailure env) := by
  have hcached : m₀.configs.contains id = true := OrdMap.contains_iff.mpr ⟨current, hcurrent⟩
  refine Spec.bind (R := fun config m => applyChanges changes current = .ok config ∧ m = m₀)
    (spec_ofExcept (fun config happly m hm => ⟨happly, hm⟩) fun error happly m hm => ?_) fun config => ?_
  · subst hm
    refine iff_of_true (untouched_self m id) ⟨.inl hcached, fun _ c _ _ hc hc' => ?_, fun _ c _ hc hc' => ?_⟩
    all_goals
      rw [hcurrent] at hc
      cases hc
      exact absurd (happly.symm.trans hc') nofun
  rintro m ⟨happly, rfl⟩
  refine spec_get_bind (P := fun m' => m' = m) (fun m' hm' => ?_) m rfl
  subst hm'
  cases hvalid : m'.validateConfig env.updated config with
  | error error =>
    have hharmless : Harmless toml m' id changes validateOnly rollbackOnFailure env ↔
        (rollbackOnFailure = true → m'.snapshots.get id = none) := by
      refine ⟨fun h hback => h.kept hback current config error hcurrent happly hvalid, fun h => ⟨.inl hcached, ?_, ?_⟩⟩
      · exact fun hback _ _ _ _ _ _ => h hback
      · intro _ c config' hc hc' hvalid'
        rw [hcurrent] at hc
        cases hc
        rw [happly] at hc'
        cases hc'
        exact absurd (hvalid.symm.trans hvalid') nofun
    refine spec_ite (fun hback => ?_) fun hback => spec_throw fun m'' hm'' => ?_
    · cases hsnapshot : m'.snapshots.get id with
      | none =>
        refine Spec.bind (R := fun _ m'' => m'' = m')
          ((spec_attempt (spec_rollbackConfig_none hsnapshot)).imp (fun _ hm => hm)
          (fun result m'' hm'' => ?_) fun _ _ hm => hm) fun _ => spec_throw fun m'' hm'' => ?_
        · cases result with
          | ok config => exact hm''.elim
          | error error => exact hm''
        · subst hm''
          exact iff_of_true (untouched_self m'' id) (hharmless.mpr fun _ => hsnapshot)
      | some snapshot =>
        refine Spec.bind (R := fun _ m'' => m''.snapshots.get id = none)
          ((spec_attempt spec_rollbackConfig).imp (fun _ hm => hm)
          (fun result m'' hm'' => ?_) fun _ _ hm => hm) fun _ => spec_throw fun m'' hm'' => ?_
        · cases result <;> exact hm''
        · refine iff_of_false (fun h => ?_) fun h => ?_
          · exact absurd (hm''.symm.trans (h.snapshot.trans hsnapshot)) nofun
          · exact absurd ((hharmless.mp h hback).symm.trans hsnapshot) nofun
    · subst hm''
      exact iff_of_true (untouched_self m'' id) (hharmless.mpr fun h => absurd h hback)
  | ok _ =>
    have hharmless : Harmless toml m' id changes validateOnly rollbackOnFailure env ↔
        (validateOnly = false → m'.losesFile toml id config env = false) := by
      refine ⟨fun h honly => h.replaced honly current config hcurrent happly hvalid, fun h => ⟨.inl hcached, ?_, ?_⟩⟩
      · intro _ c config' error hc hc' hvalid'
        rw [hcurrent] at hc
        cases hc
        rw [happly] at hc'
        cases hc'
        exact absurd (hvalid.symm.trans hvalid') nofun
      · intro honly c config' hc hc' hvalid'
        rw [hcurrent] at hc
        cases hc
        rw [happly] at hc'
        cases hc'
        exact h honly
    refine spec_ite (fun honly => ?_) fun honly => ?_
    · refine spec_get_bind fun m'' hm'' => spec_pure fun m''' hm''' _ => ?_
      subst hm'' hm'''
      exact iff_of_true (untouched_self m''' id) (hharmless.mpr fun h => absurd (honly.symm.trans h) nofun)
    · refine Spec.bind (spec_persistConfig.imp (fun _ hm => hm) (fun _ _ hm => hm) fun error m'' hm'' => ?_)
        fun _ => ?_
      · obtain ⟨⟨files, rfl⟩, hfile⟩ := hm''
        rw [hharmless]
        constructor
        · exact fun h _ => hfile.mp h.file
        · exact fun h => ⟨rfl, rfl, hfile.mpr (h (eq_false_of_ne_true honly))⟩
      · refine spec_get_bind fun m'' hm'' => Spec.bind (R := fun _ _ => True)
          (spec_modify fun _ _ => trivial) fun _ => ?_
        exact spec_pure fun _ _ h => absurd h honly

theorem keeps_persistConfig : Keeps (fun m => m.configs.contains id = true) (persistConfig toml id config env) := by
  intro m hm
  refine spec_persistConfig.imp (fun _ hm => hm) (fun _ m' hm' => ?_) (fun error m' hm' => ?_) m rfl
  · obtain ⟨files, rfl⟩ := hm'
    exact hm
  · obtain ⟨⟨files, rfl⟩, -⟩ := hm'
    exact hm

theorem contains_cache (m : ConfigManager) (id : String) (config : CollectorConfig) :
    (m.cache id config).configs.contains id = true :=
      OrdMap.contains_iff.mpr ⟨config, (OrdMap.get_insert ..).trans (if_pos rfl)⟩

theorem keeps_rollbackConfig : Keeps (fun m => m.configs.contains id = true) (rollbackConfig toml id env) := by
  refine spec_get_bind fun m hm => ?_
  cases m.snapshots.get id with
  | none => exact spec_throw fun m' hm' => hm' ▸ hm
  | some snapshot =>
    refine Spec.bind (spec_modify (Q := fun _ m => m.configs.contains id = true) fun m' hm' => ?_) fun _ => ?_
    · subst hm'
      exact hm
    · exact Spec.bind keeps_persistConfig fun _ => Spec.bind (R := fun _ m => m.configs.contains id = true)
        (spec_modify fun m' _ => m'.contains_cache id _) fun _ => spec_pure fun _ hm => hm

theorem keeps_updateFrom : Keeps (fun m => m.configs.contains id = true)
    (updateFrom toml id changes validateOnly rollbackOnFailure env current) := by
  refine Spec.bind (R := fun _ m => m.configs.contains id = true)
    (spec_ofExcept (fun _ _ _ hm => hm) fun _ _ _ hm => hm) fun config => spec_get_bind fun m hm => ?_
  cases m.validateConfig env.updated config with
  | error error =>
    refine spec_ite (fun _ => ?_) fun _ => spec_throw fun m' hm' => hm' ▸ hm
    refine Spec.bind (R := fun _ m => m.configs.contains id = true) ((spec_attempt keeps_rollbackConfig).imp
      (fun m' hm' => hm' ▸ hm) (fun result m' hm' => ?_) fun _ _ hm => hm) fun _ => spec_throw fun _ hm => hm
    cases result <;> exact hm'
  | ok _ =>
    refine spec_ite (fun _ => ?_) fun _ => ?_
    · exact spec_get_bind fun m' hm' => spec_pure fun m'' hm'' => hm'' ▸ hm' ▸ hm
    · refine Spec.bind (keeps_persistConfig.imp (fun m' hm' => hm' ▸ hm) (fun _ _ hm => hm) fun _ _ hm => hm) fun _ =>
        ?_
      exact spec_get_bind fun m' hm' => Spec.bind (R := fun _ m => m.configs.contains id = true)
        (spec_modify fun m'' _ => m''.contains_cache id config) fun _ => spec_pure fun _ hm => hm

theorem spec_updateConfig :
    Spec (fun m => m = m₀) (updateConfig toml id changes validateOnly rollbackOnFailure env)
      (fun _ m => validateOnly = true →
        (Untouched m₀ m id ↔ Harmless toml m₀ id changes validateOnly rollbackOnFailure env))
      (fun _ m => Untouched m₀ m id ↔ Harmless toml m₀ id changes validateOnly rollbackOnFailure env) := by
  cases hcached : m₀.configs.get id with
  | some current =>
    refine Spec.bind (R := fun c m => c = current ∧ m = m₀) (spec_get_bind fun m hm => ?_) fun c => ?_
    · subst hm
      rw [hcached]
      exact spec_pure fun m' hm' => ⟨rfl, hm'⟩
    · rintro m ⟨rfl, rfl⟩
      exact spec_updateFrom hcached m rfl
  | none =>
    have habsent : m₀.configs.contains id = false := by simp [OrdMap.contains, hcached]
    refine Spec.bind (R := fun c m => m₀.loadable toml id env = .ok c ∧ m.configs.contains id = true)
      (spec_get_bind fun m hm => ?_) fun c => ?_
    · subst hm
      rw [hcached]
      refine spec_get_bind fun m' hm' => ?_
      subst hm'
      refine Spec.bind (R := fun c m => m'.loadable toml id env = .ok c)
        (spec_ofExcept (fun c hload _ _ => hload) fun error hload m hm => ?_) fun c => ?_
      · subst hm
        refine iff_of_true (untouched_self m id) ⟨.inr ⟨error, hload⟩, fun _ _ _ _ hc => ?_, fun _ _ _ hc => ?_⟩
        all_goals exact absurd (hcached.symm.trans hc) nofun
      · exact Spec.bind (R := fun _ m => m'.loadable toml id env = .ok c ∧ m.configs.contains id = true)
          (spec_modify fun m hm => ⟨hm, m.contains_cache id c⟩) fun _ => spec_pure fun _ hm => hm
    · have htouched : ∀ m, m₀.loadable toml id env = .ok c ∧ m.configs.contains id = true →
          (Untouched m₀ m id ↔ Harmless toml m₀ id changes validateOnly rollbackOnFailure env) := by
        rintro m ⟨hload, hm⟩
        refine iff_of_false (fun h => ?_) fun h => ?_
        · rw [OrdMap.contains, h.cached, hcached] at hm
          cases hm
        · obtain hthere | ⟨error, hload'⟩ := h.cached
          · exact absurd (habsent.symm.trans hthere) nofun
          · exact absurd (hload.symm.trans hload') nofun
      rintro m ⟨hload, hm⟩
      exact keeps_updateFrom.imp (fun _ hm => hm) (fun _ m' hm' _ => htouched m' ⟨hload, hm'⟩)
        (fun _ m' hm' => htouched m' ⟨hload, hm'⟩) m hm

end

/-! ## Reached states -/

def reached (toml : Toml) (configDir : String) (windows : Bool) (files : OrdMap String String)
    (calls : List ConfigCall) :
    ConfigManager := runFrom (ConfigManager.call toml) (.new configDir windows files) calls

def Refuses {α : Type} (op : ConfigOp α) (m : ConfigManager) : Prop := ∃ error m', op m = .error error m'

theorem after_of_spec {α : Type} {x : ConfigOp α} {m : ConfigManager} {Q E : ConfigManager → Prop}
    (h : Spec (fun m' => m' = m) x (fun _ => Q) (fun _ => E)) :
    (Refuses x m → E (m.after x)) ∧ (¬ Refuses x m → Q (m.after x)) := by
  have hm := h m rfl
  unfold Refuses after
  cases hx : x m with
  | ok a m' =>
    rw [hx] at hm
    exact ⟨fun ⟨_, _, heq⟩ => absurd heq nofun, fun _ => hm⟩
  | error e m' =>
    rw [hx] at hm
    exact ⟨fun _ => hm, fun hno => absurd ⟨e, m', rfl⟩ hno⟩

/-- After any calls: an update that is refused or only validates leaves its collector untouched exactly where it is
harmless, and a rollback that fails leaves the snapshot exactly where there is none. -/
theorem refused_update_changes_nothing_iff (toml : Toml) (configDir : String) (windows : Bool)
    (files : OrdMap String String) (calls : List ConfigCall) (id : String) (changes : List (String × JsonValue))
    (validateOnly rollbackOnFailure : Bool) (env : DiskAnswers) :
    (Refuses (updateConfig toml id changes validateOnly rollbackOnFailure env)
      (reached toml configDir windows files calls) ∨ validateOnly = true →
      (Untouched (reached toml configDir windows files calls)
          ((reached toml configDir windows files calls).call toml
            (.update id changes validateOnly rollbackOnFailure env)) id ↔
        Harmless toml (reached toml configDir windows files calls) id changes validateOnly rollbackOnFailure env)) ∧
      (Refuses (rollbackConfig toml id env) (reached toml configDir windows files calls) →
        (((reached toml configDir windows files calls).call toml (.rollback id env)).snapshots.get id =
            (reached toml configDir windows files calls).snapshots.get id ↔
          (reached toml configDir windows files calls).snapshots.get id = none)) := by
  generalize reached toml configDir windows files calls = m
  constructor
  · intro hcall
    obtain ⟨hrefused, haccepted⟩ := after_of_spec (m := m)
      (x := updateConfig toml id changes validateOnly rollbackOnFailure env) (Q := fun m' => validateOnly = true →
        (Untouched m m' id ↔ Harmless toml m id changes validateOnly rollbackOnFailure env)) spec_updateConfig
    by_cases hno : Refuses (updateConfig toml id changes validateOnly rollbackOnFailure env) m
    · exact hrefused hno
    · exact haccepted hno (hcall.resolve_left hno)
  · intro hrefused
    change (m.after (rollbackConfig toml id env)).snapshots.get id = m.snapshots.get id ↔ m.snapshots.get id = none
    cases hsnapshot : m.snapshots.get id with
    | none =>
      have hsame : m.after (rollbackConfig toml id env) = m :=
        (after_of_spec (spec_rollbackConfig_none hsnapshot)).1 hrefused
      rw [hsame]
      exact iff_of_true hsnapshot rfl
    | some snapshot =>
      have hgone : (m.after (rollbackConfig toml id env)).snapshots.get id = none :=
        (after_of_spec spec_rollbackConfig).1 hrefused
      rw [hgone]
      exact iff_of_false nofun nofun

end ConfigManager

/-! ## An update after an update -/

namespace RolledBack

open ConfigManager

def config (maxRestarts : UInt32) : CollectorConfig := ⟨"/usr/bin/procmond", [], .empty, none, none, false, maxRestarts⟩

def text (maxRestarts : UInt32) : String :=
  "binary_path = \"/usr/bin/procmond\"\nargs = []\nauto_restart = false\nmax_restarts = " ++
    (if maxRestarts = 3 then "3" else "5") ++ "\n\n[env]\n"

/-- What the crate does with the two configurations. -/
def toml : Toml where
  parse t := if t = text 3 then .ok (config 3) else if t = text 5 then .ok (config 5) else .error "expected key"
  render c := if c = config 3 ∨ c = config 5 then .ok (text c.maxRestarts) else .error "unsupported value"

def disk : DiskAnswers := ⟨none, fun _ => .file 0o755, fun _ => .file 0o755, none, none, none, none, none⟩

def files : OrdMap String String := OrdMap.empty.insert "/etc/daemoneye/procmond-1.toml" (text 3)

def updated : List ConfigCall := [.update "procmond-1" [("max_restarts", .posInt 5)] false true disk]

def manager : ConfigManager := reached toml "/etc/daemoneye" false files updated

/-- A limit that is no limit. -/
def zeroLimit : List (String × JsonValue) := [("resource_limits", .object [("max_memory_bytes", .posInt 0)])]

def refused : ConfigManager := manager.call toml (.update "procmond-1" zeroLimit false true disk)

/-- Without `rollback_on_failure` the same update changes nothing. -/
theorem refused_update_changes_nothing :
    Refuses (updateConfig toml "procmond-1" zeroLimit false false disk) manager ∧
      Untouched manager (manager.call toml (.update "procmond-1" zeroLimit false false disk)) "procmond-1" := by
  have hrefuses : Refuses (updateConfig toml "procmond-1" zeroLimit false false disk) manager := ⟨_, _, rfl⟩
  refine ⟨hrefuses, ((refused_update_changes_nothing_iff toml "/etc/daemoneye" false files updated "procmond-1"
    zeroLimit false false disk).1 (.inl hrefuses)).mpr ⟨.inl (by decide), nofun, fun _ _ _ _ _ _ => ?_⟩⟩
  have hunix : (reached toml "/etc/daemoneye" false files updated).windows = false := by decide
  simp [losesFile, hunix]

/-- It takes back the update before it: the cache and the file have 3 again, and the snapshot is gone. -/
theorem refused_update_takes_back :
    Refuses (updateConfig toml "procmond-1" zeroLimit false true disk) manager ∧
      manager.configs.get "procmond-1" = some (config 5) ∧ refused.configs.get "procmond-1" = some (config 3) ∧
      manager.files.get "/etc/daemoneye/procmond-1.toml" = some (text 5) ∧
      refused.files.get "/etc/daemoneye/procmond-1.toml" = some (text 3) ∧
      manager.snapshots.get "procmond-1" = some ⟨config 3, 0⟩ ∧ refused.snapshots.get "procmond-1" = none ∧
      ¬ Untouched manager refused "procmond-1" := by
  have hbefore : manager.configs.get "procmond-1" = some (config 5) := by decide
  have hafter : refused.configs.get "procmond-1" = some (config 3) := by decide
  refine ⟨⟨_, _, rfl⟩, hbefore, hafter, by decide, by decide, by decide, by decide, fun h => ?_⟩
  have hsame := h.cached
  rw [hbefore, hafter] at hsame
  exact absurd hsame (by decide)

end RolledBack

end DaemonEye.Eventbus
