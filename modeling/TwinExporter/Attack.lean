import TwinExporter.Provenance

/-!
# The attack script

`attack.py` is a second client of BaSyx. For each target of its configuration it makes sure of the
shell of the thing and of the submodel `thing_id:feature_id`, with the same requests as the
exporter (`get_basyx_shell`, `create_basyx_shell`, `create_basyx_submodel`, `update_basyx_element`
have the exporter's bodies), but inside `try ... except requests.RequestException: return False`,
so a failed request answers `False` instead of raising. `simulate_attack` is the exporter's
`ensureShell`, `ensureSubmodel` and `updateBasyxElement` chained, with the raise turned into
`False` (`attempt`).

The chain never fails: each request is sent exactly when BaSyx accepts it, the shell before the
reference and the submodel before the element. From every store the attack answers `True`, writes
`str(value)` into a missing element and `f'"{value}"'` into an existing one, and changes no other
value and deletes nothing (`simulateAttack_spec`). So `execute_attack_cycle` counts as failed
exactly the targets that its `all([...])` check rejects (`executeAttackCycle_results`). On a BaSyx
where every target's shell and element exist, an attack cycle is one `PATCH` per valid target
(`executeAttackCycle_patches`), so the exporter's later rounds send what they send without it
(`executeAttackCycle_unseen`, by the argument of `runEvents_patches` of `Oblivious.lean`).
-/

namespace TwinExporter

/-- A step of `attack.py` inside `try ... except requests.RequestException: return False`: whether
it returned, and the world that it leaves. -/
def attempt : Except World World → Bool × World
  | .ok w => (true, w)
  | .error w => (false, w)

/-- `simulate_attack(thing_id, feature_id, property_id, value, verify_ditto=False)`: the shell when
`get_basyx_shell` answers `404`, the submodel `f"{thing_id}:{feature_id}"` with its reference when
`get_basyx_submodel` does, then `update_basyx_element`; a step that fails returns `False`. -/
def simulateAttack (host : Host) (thing_id feature_id property_id : String) (value : JsonValue)
    (w : World) : Bool × World :=
  attempt <| ((ensureShell (some thing_id) w).bind
    (ensureSubmodel (some thing_id) (submodelId thing_id feature_id))).bind
      (updateBasyxElement host (submodelId thing_id feature_id) property_id value)

/-- An entry of `attack_targets`, by what `target.get(key)` returns for each key it reads:
`none` for a missing key. -/
structure AttackTarget where
  /-- `target.get("thing_id")`. -/
  thing_id : Option String := none
  /-- `target.get("feature_id")`. -/
  feature_id : Option String := none
  /-- `target.get("property_id")`. -/
  property_id : Option String := none
  /-- `target.get("attack_value")`. -/
  attack_value : Option JsonValue := none

/-- `None`. -/
def JsonValue.isNull : JsonValue → Bool
  | .null => true
  | _ => false

/-- `all([thing_id, feature_id, property_id, attack_value is not None])`: the three ids are
non-empty strings and the value is not `None`; then the fields that the attack reads. -/
def AttackTarget.valid? (target : AttackTarget) : Option (String × String × String × JsonValue) :=
  match target.thing_id, target.feature_id, target.property_id, target.attack_value with
  | some t, some f, some p, some v =>
    if t ≠ "" ∧ f ≠ "" ∧ p ≠ "" ∧ !v.isNull then some (t, f, p, v) else none
  | _, _, _, _ => none

/-- The `results` dictionary of `execute_attack_cycle`. -/
structure AttackResults where
  /-- `results["successful"]`. -/
  successful : Nat
  /-- `results["failed"]`. -/
  failed : Nat
  /-- `results["total"]`. -/
  total : Nat
  deriving DecidableEq, Repr

/-- One turn of the `for target in attack_targets` loop: an invalid target fails, a valid one
counts as `simulate_attack` answers. -/
def attackStep (host : Host) (r : AttackResults × World) (target : AttackTarget) :
    AttackResults × World :=
  match target.valid? with
  | none => ({ r.1 with failed := r.1.failed + 1 }, r.2)
  | some (t, f, p, v) =>
    let a := simulateAttack host t f p v r.2
    (if a.1 then { r.1 with successful := r.1.successful + 1 }
      else { r.1 with failed := r.1.failed + 1 }, a.2)

/-- `execute_attack_cycle()` on the list `config.get("attack_targets", [])`. -/
def executeAttackCycle (host : Host) (attack_targets : List AttackTarget) (w : World) :
    AttackResults × World :=
  attack_targets.foldl (attackStep host) (⟨0, 0, attack_targets.length⟩, w)

/-- `ATTACK_CONFIG["attack_targets"]`. -/
def attackTargets : List AttackTarget :=
  [{ thing_id := some "openplc:103b3864-923d-49d0-8f1c-8c6810a025c3",
     feature_id := some "coughsyrupvalve", property_id := some "open",
     attack_value := some (.str "ABCD") }]

/-! ## The requests of one attack -/

section Spec

variable (host : Host)

/-- `get_basyx_shell`, then `create_basyx_shell` on `404`, returns: it creates the shell exactly
when it is missing. -/
theorem ensureShell_spec (t : String) (w : World) :
    ensureShell (some t) w =
      .ok (sendAll (if w.store.has (.shell (encodeId t)) then [] else [.createShell t]) w) := by
  simp only [ensureShell, Store.has]
  split_ifs with hs
  · rfl
  · exact post_eq_ok (by simp [Store.apply, hs])

/-- With the shell of `t` present, `get_basyx_submodel`, then `create_basyx_submodel` on `404`,
returns: it creates the submodel and its reference exactly when the submodel is missing. -/
theorem ensureSubmodel_spec (t sid : String) {w : World} (hs : w.store.has (.shell (encodeId t))) :
    ensureSubmodel (some t) sid w =
      .ok (sendAll (if w.store.has (.submodel (encodeId sid)) then []
        else [.createSubmodel sid, .postSubmodelRef (encodeId t) sid]) w) := by
  simp only [ensureSubmodel, Store.has] at hs ⊢
  split_ifs with hm
  · rfl
  · obtain ⟨sh, hsh⟩ := Option.isSome_iff_exists.mp hs
    have h₁ := post_eq_ok (w := w) (c := .createSubmodel sid) (by simp [Store.apply, hm])
    have h₂ := post_eq_ok (w := (w.send (.createSubmodel sid)).2)
      (c := .postSubmodelRef (encodeId t) sid) (by simp [Store.apply, hsh, hm])
    simp only [createBasyxSubmodel, h₁, Except.bind, h₂]
    rfl

/-- The request of `update_basyx_element`: an update with `f'"{value}"'` of an element that
exists, a create with `str(value)` of one that does not. -/
def upsertCall (host : Host) (k p : String) (value : JsonValue) (σ : Store) : Call :=
  if σ.hasElement k p then .updateElement k p ("\"" ++ host.str value ++ "\"")
  else .createElement k p (host.str value)

/-- With the submodel present, `update_basyx_element` returns after its one request. -/
theorem updateBasyxElement_spec (sid p : String) (v : JsonValue) {w : World}
    (hs : w.store.has (.submodel (encodeId sid))) :
    updateBasyxElement host sid p v w = .ok (sendAll [upsertCall host (encodeId sid) p v w.store] w) := by
  simp only [Store.has] at hs
  obtain ⟨sm, hsm⟩ := Option.isSome_iff_exists.mp hs
  unfold updateBasyxElement upsertCall
  split_ifs with he
  · exact post_eq_ok (by simp_all [Store.apply, Store.hasElement])
  · exact post_eq_ok (by simp_all [Store.apply, Store.hasElement])

/-- The element request writes its value: it is always accepted once the submodel is there. -/
theorem value_apply_upsertCall {σ : Store} {k p : String} (hs : σ.has (.submodel k))
    (v : JsonValue) :
    (σ.apply (upsertCall host k p v σ)).2.value k p =
      some (if σ.hasElement k p then "\"" ++ host.str v ++ "\"" else host.str v) := by
  rw [Store.value_apply]
  unfold upsertCall
  split_ifs with he <;> simp_all [Call.written, Call.accepted, Store.has]

/-- The requests that `simulate_attack` sends before its write: the shell of the thing when
missing, then the submodel `thing_id:feature_id` and its reference when missing. -/
def attackSetup (thing_id feature_id : String) (σ : Store) : List Call :=
  (if σ.has (.shell (encodeId thing_id)) then [] else [.createShell thing_id]) ++
    (if σ.has (.submodel (encodeId (submodelId thing_id feature_id))) then []
      else [.createSubmodel (submodelId thing_id feature_id),
        .postSubmodelRef (encodeId thing_id) (submodelId thing_id feature_id)])

/-- Sending calls changes the places that are present as `Call.present` says, call after call. -/
theorem sendAll_has (cs : List Call) (w : World) :
    (sendAll cs w).store.has = cs.foldl (fun h c => c.present h) w.store.has := by
  induction cs generalizing w with
  | nil => rfl
  | cons c cs ih => rw [sendAll_cons, ih, send_store, Store.has_apply_eq]; rfl

/-- After the setup the shell and the submodel are present, and every element is present exactly
when it was. -/
theorem attackSetup_has (thing_id feature_id : String) (w : World) :
    (sendAll (attackSetup thing_id feature_id w.store) w).store.has (.shell (encodeId thing_id)) ∧
      (sendAll (attackSetup thing_id feature_id w.store) w).store.has
        (.submodel (encodeId (submodelId thing_id feature_id))) ∧
      ∀ k p, (sendAll (attackSetup thing_id feature_id w.store) w).store.hasElement k p =
        w.store.hasElement k p := by
  refine ⟨?_, ?_, fun k p => (?_ : Store.has _ (.element k p) = Store.has _ (.element k p))⟩ <;>
  · simp only [attackSetup, sendAll_has, List.foldl_append]
    split_ifs <;> simp_all [Call.present, BEq.beq]

/-- `simulate_attack` sends the setup, then its write, and answers `True`. -/
theorem simulateAttack_eq (t f p : String) (v : JsonValue) (w : World) :
    simulateAttack host t f p v w = (true, sendAll (attackSetup t f w.store ++
      [upsertCall host (encodeId (submodelId t f)) p v w.store]) w) := by
  have hsh : (sendAll (if w.store.has (.shell (encodeId t)) then [] else [.createShell t]) w).store.has
      (.shell (encodeId t)) := by
    rw [sendAll_has]; split_ifs <;> simp_all [Call.present]
  have hm : (sendAll (if w.store.has (.shell (encodeId t)) then [] else [.createShell t]) w).store.has
      (.submodel (encodeId (submodelId t f))) = w.store.has (.submodel (encodeId (submodelId t f))) := by
    rw [sendAll_has]; split_ifs <;> simp [Call.present, BEq.beq]
  obtain ⟨-, hsub, he⟩ := attackSetup_has t f w
  have hu : upsertCall host (encodeId (submodelId t f)) p v
      (sendAll (attackSetup t f w.store) w).store = upsertCall host (encodeId (submodelId t f)) p v w.store := by
    rw [upsertCall, upsertCall, he]
  simp only [simulateAttack, ensureShell_spec, Except.bind, ensureSubmodel_spec _ _ hsh, hm,
    ← sendAll_append]
  rw [← attackSetup, updateBasyxElement_spec host _ _ _ hsub, hu, attempt, sendAll_append]

/-- An attack deletes nothing. -/
theorem attackCalls_not_delete (t f p : String) (v : JsonValue) (σ : Store) :
    ∀ c ∈ attackSetup t f σ ++ [upsertCall host (encodeId (submodelId t f)) p v σ], ¬c.IsDelete := by
  simp only [attackSetup, upsertCall]
  split_ifs <;> simp [Call.IsDelete]

/-- The target element after an attack: `str(value)` when it was missing, `f'"{value}"'` when it
existed. -/
theorem simulateAttack_value (t f p : String) (v : JsonValue) (w : World) :
    (simulateAttack host t f p v w).2.store.value (encodeId (submodelId t f)) p =
      some (if w.store.hasElement (encodeId (submodelId t f)) p
        then "\"" ++ host.str v ++ "\"" else host.str v) := by
  obtain ⟨-, hsub, he⟩ := attackSetup_has t f w
  rw [simulateAttack_eq, sendAll_append, sendAll_cons, sendAll_nil, send_store, upsertCall, ← he,
    ← upsertCall, value_apply_upsertCall host hsub]

/-- `simulate_attack` succeeds from every BaSyx: it answers `True`; the target element then holds
`str(value)` when it was missing and `f'"{value}"'` when it existed; every other element keeps its
value; every place that was present still is; and the shell of the thing and the submodel
`thing_id:feature_id` are present. -/
theorem simulateAttack_spec (thing_id feature_id property_id : String) (value : JsonValue)
    (w : World) :
    ∃ w', simulateAttack host thing_id feature_id property_id value w = (true, w') ∧
      w'.store.value (encodeId (submodelId thing_id feature_id)) property_id =
        some (if w.store.hasElement (encodeId (submodelId thing_id feature_id)) property_id
          then "\"" ++ host.str value ++ "\"" else host.str value) ∧
      (∀ k p, (k, p) ≠ (encodeId (submodelId thing_id feature_id), property_id) →
        w'.store.value k p = w.store.value k p) ∧
      (∀ x, w.store.has x → w'.store.has x) ∧
      w'.store.has (.shell (encodeId thing_id)) ∧
      w'.store.has (.submodel (encodeId (submodelId thing_id feature_id))) := by
  obtain ⟨hsh, hsub, he⟩ := attackSetup_has thing_id feature_id w
  have hnd := attackCalls_not_delete host thing_id feature_id property_id value w.store
  have hsetup : ∀ k p, (sendAll (attackSetup thing_id feature_id w.store) w).store.value k p =
      w.store.value k p := fun k p => sendAll_value_of_written (by
        simp only [attackSetup]
        split_ifs <;> simp [Call.written]) w
  refine ⟨_, simulateAttack_eq host _ _ _ _ w, ?_, fun k p hkp => ?_,
    fun x hx => has_sendAll hnd hx, ?_, ?_⟩
  · have h := simulateAttack_value host thing_id feature_id property_id value w
    rwa [simulateAttack_eq] at h
  all_goals rw [sendAll_append, sendAll_cons, sendAll_nil, send_store]
  · have hne : ¬(encodeId (submodelId thing_id feature_id) = k ∧ property_id = p) :=
      fun ⟨h₁, h₂⟩ => hkp (by rw [h₁, h₂])
    rw [Store.value_apply_of_written _ ?_, hsetup]
    simp only [upsertCall]
    split_ifs <;> simp only [Call.written, hne, if_false]
  · exact Store.has_apply _ (hnd _ (by simp)) hsh
  · exact Store.has_apply _ (hnd _ (by simp)) hsub

/-! ## The attack cycle -/

/-- One turn of the loop adds one to `successful` for a valid target, and one to `failed` for the
others. -/
theorem attackStep_fst (r : AttackResults × World) (target : AttackTarget) :
    (attackStep host r target).1 = if target.valid?.isSome
      then { r.1 with successful := r.1.successful + 1 } else { r.1 with failed := r.1.failed + 1 } := by
  unfold attackStep
  split <;> simp_all [simulateAttack_eq]

/-- Over the targets, the counters of `execute_attack_cycle` add the valid targets to
`successful` and the invalid ones to `failed`, and keep `total`. -/
theorem foldl_attackStep_fst : ∀ (ts : List AttackTarget) (r : AttackResults × World),
    (ts.foldl (attackStep host) r).1 = ⟨r.1.successful + ts.countP (·.valid?.isSome),
      r.1.failed + ts.countP (·.valid?.isNone), r.1.total⟩
  | [], r => rfl
  | target :: ts, r => by
    rw [List.foldl_cons, foldl_attackStep_fst ts, attackStep_fst, List.countP_cons,
      List.countP_cons]
    cases target.valid? <;> simp only [Option.isSome_none, Option.isSome_some, Option.isNone_none,
      Option.isNone_some, if_true, if_false, Bool.false_eq_true] <;> congr 1 <;> omega

/-- `execute_attack_cycle` counts every valid target as successful and every target that its
`all([...])` check rejects as failed, from every BaSyx: `successful + failed = total`, and an
attack on a valid target never fails. -/
theorem executeAttackCycle_results (attack_targets : List AttackTarget) (w : World) :
    (executeAttackCycle host attack_targets w).1 = ⟨attack_targets.countP (·.valid?.isSome),
      attack_targets.countP (·.valid?.isNone), attack_targets.length⟩ ∧
      (executeAttackCycle host attack_targets w).1.successful +
        (executeAttackCycle host attack_targets w).1.failed =
          (executeAttackCycle host attack_targets w).1.total := by
  have h : (executeAttackCycle host attack_targets w).1 = ⟨attack_targets.countP (·.valid?.isSome),
      attack_targets.countP (·.valid?.isNone), attack_targets.length⟩ := by
    rw [executeAttackCycle, foldl_attackStep_fst]
    simp
  refine ⟨h, ?_⟩
  rw [h, List.length_eq_countP_add_countP (·.valid?.isSome)]
  simp [Option.isNone_iff_eq_none, Option.isSome_iff_ne_none]

/-- An element exists only in a submodel that exists. -/
theorem Store.has_submodel_of_hasElement {σ : Store} {k p : String} (h : σ.hasElement k p) :
    σ.has (.submodel k) := by
  simp only [Store.hasElement, Store.has] at h ⊢
  cases hs : σ.submodels k <;> simp_all

/-- The events of an attack cycle on targets whose shell and element exist: one `PATCH` of
`f'"{value}"'` per valid target, in order. -/
def attackPatches (host : Host) (attack_targets : List AttackTarget) : List Event :=
  attack_targets.filterMap fun target => target.valid?.map fun (t, f, p, v) =>
    .patch (encodeId (submodelId t f)) p ("\"" ++ host.str v ++ "\"")

/-- An attack whose shell and element exist sends one `PATCH`. -/
theorem simulateAttack_of_present {t f p : String} (v : JsonValue) {w : World}
    (hs : w.store.has (.shell (encodeId t))) (he : w.store.hasElement (encodeId (submodelId t f)) p) :
    (simulateAttack host t f p v w).2.store =
      ((Event.patch (encodeId (submodelId t f)) p ("\"" ++ host.str v ++ "\"")).run host w).store := by
  rw [simulateAttack_eq, attackSetup, upsertCall, if_pos hs, if_pos (Store.has_submodel_of_hasElement he),
    if_pos he]
  rfl

/-- On a BaSyx where every valid target's shell and element exist, the loop of
`execute_attack_cycle` leaves the store of the run of one patch per valid target. -/
theorem foldl_attackStep_snd {σ₀ : Store} : ∀ (ts : List AttackTarget) (r : AttackResults × World) (w : World),
    (∀ target ∈ ts, ∀ t f p v, target.valid? = some (t, f, p, v) →
      σ₀.has (.shell (encodeId t)) ∧ σ₀.hasElement (encodeId (submodelId t f)) p) →
    r.2.store = w.store → w.store.has = σ₀.has →
      (ts.foldl (attackStep host) r).2.store = (runEvents host (attackPatches host ts) w).store
  | [], _, _, _, h, _ => h
  | target :: ts, r, w, hp, h, hσ => by
    have hp' := fun target' h' => hp target' (List.mem_cons_of_mem _ h')
    rw [List.foldl_cons, attackPatches, List.filterMap_cons]
    unfold attackStep
    cases hv : target.valid? with
    | none => exact foldl_attackStep_snd ts _ w hp' h hσ
    | some a =>
      obtain ⟨t, f, p, v⟩ := a
      obtain ⟨hs, he⟩ := hp target (List.mem_cons_self _ _) t f p v hv
      have hs' : r.2.store.has (.shell (encodeId t)) := by rwa [h, hσ]
      have he' : r.2.store.hasElement (encodeId (submodelId t f)) p := by
        show r.2.store.has (.element _ _); rw [h, hσ]; exact he
      refine foldl_attackStep_snd ts _ _ hp' ?_ ?_
      · rw [simulateAttack_of_present host v hs' he']
        simp only [Event.run, h]
      · exact (Store.apply_update_has _ _ _ _).trans hσ

/-- On a BaSyx where every valid target's shell and element exist, an attack cycle sends one
`PATCH` of `f'"{value}"'` per valid target and nothing else: its store is that of the run of
those patches. -/
theorem executeAttackCycle_patches (attack_targets : List AttackTarget) (w : World)
    (hp : ∀ target ∈ attack_targets, ∀ t f p v, target.valid? = some (t, f, p, v) →
      w.store.has (.shell (encodeId t)) ∧ w.store.hasElement (encodeId (submodelId t f)) p) :
    (executeAttackCycle host attack_targets w).2.store =
      (runEvents host (attackPatches host attack_targets) w).store :=
  foldl_attackStep_snd host attack_targets _ w hp rfl rfl

/-- The events of an attack cycle are patches. -/
theorem isRound_of_mem_attackPatches {attack_targets : List AttackTarget} {e : Event}
    (he : e ∈ attackPatches host attack_targets) : e.isRound = false := by
  obtain ⟨_, -, he⟩ := List.mem_filterMap.mp he
  obtain ⟨⟨t, f, p, v⟩, -, rfl⟩ := Option.map_eq_some'.mp he
  rfl

/-- The exporter does not see an attack cycle on a BaSyx where every valid target's shell and
element exist: its later rounds send the calls that they send without it, leave the same places,
and every element that the attack does not patch holds the value it holds without it. -/
theorem executeAttackCycle_unseen (attack_targets : List AttackTarget) (w : World)
    (hp : ∀ target ∈ attack_targets, ∀ t f p v, target.valid? = some (t, f, p, v) →
      w.store.has (.shell (encodeId t)) ∧ w.store.hasElement (encodeId (submodelId t f)) p)
    (es : List Event) (hr : ∀ e ∈ es, e.isRound = true) :
    (runEvents host es (executeAttackCycle host attack_targets w).2).log.drop
        (executeAttackCycle host attack_targets w).2.log.length =
      (runEvents host es w).log.drop w.log.length ∧
      (runEvents host es (executeAttackCycle host attack_targets w).2).store.has =
        (runEvents host es w).store.has ∧
      ∀ k p, (∀ body, Event.patch k p body ∉ attackPatches host attack_targets) →
        (runEvents host es (executeAttackCycle host attack_targets w).2).store.value k p =
          (runEvents host es w).store.value k p := by
  -- the attack leaves the store of its patches, and they add nothing to the log
  have hu : (runEvents host (attackPatches host attack_targets) w).log = w.log :=
    runEvents_log_of_patches host _ w fun _ => isRound_of_mem_attackPatches host
  have hst : (executeAttackCycle host attack_targets w).2.store =
      (runEvents host (attackPatches host attack_targets) w).store :=
    foldl_attackStep_snd host attack_targets _ w hp rfl rfl
  obtain ⟨L, h₁, h₂, hs⟩ := runEvents_of_store_eq host es hst
  -- the rounds after the patches and the rounds alone agree off the patched elements
  have hsame := SameOn.runEvents host (Q := fun k p => ∀ body, Event.patch k p body ∉
      attackPatches host attack_targets) (attackPatches host attack_targets ++ es)
    (fun k p b hb hq => (List.mem_append.mp hb).elim (hq b) fun he => by
      simpa [Event.isRound] using hr _ he)
    (⟨rfl, rfl, fun _ _ _ => rfl⟩ : SameOn _ w w)
  rw [runEvents_append, List.filter_append,
    List.filter_eq_nil_iff.mpr fun e he => by simp [isRound_of_mem_attackPatches host he],
    List.filter_eq_self.mpr hr, List.nil_append] at hsame
  refine ⟨?_, by rw [hs, hsame.has], fun k p hk => by rw [hs, hsame.value k p hk]⟩
  rw [h₁, List.drop_left, ← hsame.log, h₂, hu, List.drop_left]

/-- BaSyx after one attack cycle of `ATTACK_CONFIG` on an empty store. -/
def attackedWorld : World := (executeAttackCycle textHost attackTargets ⟨Store.empty, []⟩).2

/-- After one attack cycle of `ATTACK_CONFIG`, the shell and the element of its one target
exist. -/
theorem attackedWorld_present :
    ∀ target ∈ attackTargets, ∀ t f p v, target.valid? = some (t, f, p, v) →
      attackedWorld.store.has (.shell (encodeId t)) ∧
        attackedWorld.store.hasElement (encodeId (submodelId t f)) p := by
  intro target h t f p v hv
  simp only [attackTargets, List.mem_singleton] at h
  subst h
  obtain ⟨rfl, rfl, rfl, rfl⟩ : "openplc:103b3864-923d-49d0-8f1c-8c6810a025c3" = t ∧
      "coughsyrupvalve" = f ∧ "open" = p ∧ JsonValue.str "ABCD" = v := by
    simpa [AttackTarget.valid?, JsonValue.isNull] using hv
  decide

/-- A second attack cycle of `ATTACK_CONFIG` is one `PATCH` of its target. -/
theorem executeAttackCycle_patches_again :
    (∀ target ∈ attackTargets, ∀ t f p v, target.valid? = some (t, f, p, v) →
      attackedWorld.store.has (.shell (encodeId t)) ∧
        attackedWorld.store.hasElement (encodeId (submodelId t f)) p) ∧
      (executeAttackCycle textHost attackTargets attackedWorld).2.store =
        (runEvents textHost (attackPatches textHost attackTargets) attackedWorld).store :=
  ⟨attackedWorld_present,
    executeAttackCycle_patches textHost attackTargets attackedWorld attackedWorld_present⟩

/-- A second attack cycle of `ATTACK_CONFIG` does not change what a later round of the mirror
policy sends. -/
theorem executeAttackCycle_unseen_round :
    (∀ target ∈ attackTargets, ∀ t f p v, target.valid? = some (t, f, p, v) →
      attackedWorld.store.has (.shell (encodeId t)) ∧
        attackedWorld.store.hasElement (encodeId (submodelId t f)) p) ∧
      (∀ e ∈ [Event.round mirrorPolicy (valueSnapshot (.str "7")) 0], e.isRound = true) ∧
      (runEvents textHost [.round mirrorPolicy (valueSnapshot (.str "7")) 0]
          (executeAttackCycle textHost attackTargets attackedWorld).2).log.drop
          (executeAttackCycle textHost attackTargets attackedWorld).2.log.length =
        (runEvents textHost [.round mirrorPolicy (valueSnapshot (.str "7")) 0]
          attackedWorld).log.drop
          attackedWorld.log.length ∧
      (runEvents textHost [.round mirrorPolicy (valueSnapshot (.str "7")) 0]
          (executeAttackCycle textHost attackTargets attackedWorld).2).store.has =
        (runEvents textHost [.round mirrorPolicy (valueSnapshot (.str "7")) 0]
          attackedWorld).store.has ∧
      ∀ k p, (∀ body, Event.patch k p body ∉ attackPatches textHost attackTargets) →
        (runEvents textHost [.round mirrorPolicy (valueSnapshot (.str "7")) 0]
            (executeAttackCycle textHost attackTargets attackedWorld).2).store.value k p =
          (runEvents textHost [.round mirrorPolicy (valueSnapshot (.str "7")) 0]
            attackedWorld).store.value k p :=
  have hr : ∀ e ∈ [Event.round mirrorPolicy (valueSnapshot (.str "7")) 0], e.isRound = true := by
    simp [Event.isRound]
  ⟨attackedWorld_present, hr,
    executeAttackCycle_unseen textHost attackTargets attackedWorld attackedWorld_present _ hr⟩

end Spec

end TwinExporter
