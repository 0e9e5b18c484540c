import TwinExporter.Overwrite

/-!
# Running the cycle again

A cycle is not idempotent: the first cycle creates an element with `str(value)`, the second
updates it with `"` + `str(value)` + `"` (`cycle_rerun_requotes`). What holds is that the
second cycle creates nothing and keeps every place, and that a third cycle changes nothing
(`cycle_rerun`), when every place is reached from one (thing, feature) pair (`Unshared`, as
in `Disjoint.lean`): otherwise one source rule's cleanup deletes what another's reconciliation
creates again, in every cycle.

After a first cycle the store mirrors the snapshot: every shell, submodel and written element
of an exported feature is present (`reconcile_mirrors`), and every place that the cleanup pass
deletes is absent (`cycle_clear`). From such a store a cycle's cleanup changes nothing
(`Store.retire_of_absent`), and its reconciliation finds every place, so it only sends element
updates (`reconcile_updates`) and writes fixed values over the elements
(`reconcileSubmodels_overwrites` of `Overwrite.lean`). A thing without an id ends its source
rule's turn at its first exported feature, before any call, in every cycle alike, so the pass runs
as on the listings cut there (`reconcile_reached`), and the argument is made on those.
-/

namespace TwinExporter

/-! ## Places that are present -/

/-- Whether place `x` is in the store. -/
def Store.has (σ : Store) : Slot → Bool
  | .shell k => (σ.shells k).isSome
  | .submodel k => (σ.submodels k).isSome
  | .element k p => σ.hasElement k p

/-- A call that creates: a shell, a submodel, a reference or an element. -/
def Call.IsCreate : Call → Prop
  | .createShell _ | .createSubmodel _ | .postSubmodelRef _ _ | .createElement _ _ _ => True
  | _ => False

/-- An update of an element's value. -/
def Call.IsUpdate : Call → Prop
  | .updateElement _ _ _ => True
  | _ => False

/-- Whether BaSyx accepts a call, from the places that are present. -/
def Call.accepted (c : Call) (h : Slot → Bool) : Bool :=
  match c with
  | .createShell id => !h (.shell (encodeId id))
  | .createSubmodel id => !h (.submodel (encodeId id))
  | .postSubmodelRef k _ => h (.shell k)
  | .createElement k p _ => h (.submodel k) && !h (.element k p)
  | .updateElement k p _ => h (.element k p)
  | .deleteShell k => h (.shell k)
  | .deleteSubmodel k => h (.submodel k)
  | .deleteElement k p => h (.element k p)

/-- The places present after a call, from those present before. -/
def Call.present (c : Call) (h : Slot → Bool) (x : Slot) : Bool :=
  match c with
  | .createShell id => x == .shell (encodeId id) || h x
  | .createSubmodel id => x == .submodel (encodeId id) || h x
  | .createElement k p _ => (x == .element k p && h (.submodel k)) || h x
  | .postSubmodelRef _ _ | .updateElement _ _ _ => h x
  | .deleteShell k => !(x == .shell k) && h x
  | .deleteSubmodel k =>
    !(match x with
      | .submodel k' | .element k' _ => k' == k
      | .shell _ => false) && h x
  | .deleteElement k p => !(x == .element k p) && h x

/-- A delete creates nothing. -/
theorem Call.IsDelete.not_create {c : Call} (h : c.IsDelete) : ¬ c.IsCreate := by
  cases c <;> simp_all [Call.IsDelete, Call.IsCreate]

/-- An update creates nothing. -/
theorem Call.IsUpdate.not_create {c : Call} (h : c.IsUpdate) : ¬ c.IsCreate := by
  cases c <;> simp_all [Call.IsUpdate, Call.IsCreate]

section Places

variable (σ : Store)

/-- BaSyx accepts a call according to the places that are present. -/
theorem Store.apply_fst (c : Call) : (σ.apply c).1 = c.accepted σ.has := by
  cases c <;> simp only [Store.apply, Call.accepted, Store.has, Store.hasElement] <;>
    repeat' split
  all_goals simp_all

/-- A call changes the places that are present as `Call.present` says. -/
theorem Store.has_apply_eq (c : Call) : (σ.apply c).2.has = c.present σ.has := by
  funext x
  cases c <;> cases x <;> simp only [Store.apply, Call.present, Store.has, Store.hasElement] <;>
    repeat' split
  all_goals simp only [setShell_shells, setSubmodel_submodels, setShell_submodels,
    setSubmodel_shells] at *
  all_goals (repeat' split_ifs) <;> simp_all [Submodel.set, Submodel.empty]
  all_goals (try intros); (try subst_vars); (repeat' split_ifs) <;> simp_all

/-- A call that does not delete keeps every place that is present. -/
theorem Store.has_apply {c : Call} (hc : ¬ c.IsDelete) {x : Slot} (h : σ.has x) :
    (σ.apply c).2.has x := by
  rw [Store.has_apply_eq]
  cases c <;> simp_all [Call.present, Call.IsDelete]

/-- A call outside place `x` leaves it absent. -/
theorem Store.not_has_apply {c : Call} {x : Slot} (hx : ¬ x.Covers c.target)
    (h : σ.has x = false) : (σ.apply c).2.has x = false := by
  rw [Store.has_apply_eq]
  cases c <;> cases x <;> simp_all [Call.present, Call.target, Slot.Covers]
  all_goals first | exact fun e => hx e.symm | exact fun e₁ e₂ => absurd e₂.symm (hx e₁.symm)

/-- An element update keeps every shell. -/
theorem Store.apply_update_shells (k p b : String) :
    (σ.apply (.updateElement k p b)).2.shells = σ.shells := by
  simp only [Store.apply]
  repeat' split
  all_goals rfl

/-- An element update keeps every place as present or absent as it was. -/
theorem Store.apply_update_has (k p b : String) :
    (σ.apply (.updateElement k p b)).2.has = σ.has :=
  Store.has_apply_eq σ _

/-- Deletes of places that are all absent change nothing. -/
theorem Store.retire_of_absent {D : List Call} (h : ∀ d ∈ D, σ.has d.target = false) :
    σ.retire D = σ := by
  apply Store.ext <;> funext k
  · by_cases hk : Call.deleteShell k ∈ D
    · have : σ.shells k = none := by simpa [Call.target, Store.has] using h _ hk
      simp [Store.retire, hk, this]
    · simp [Store.retire, hk]
  · cases hsm : σ.submodels k with
    | none => simp [Store.retire, hsm]
    | some sm =>
      have hsub : Call.deleteSubmodel k ∉ D := fun hk => by
        simpa [Call.target, Store.has, hsm] using h _ hk
      simp only [Store.retire, hsub, if_false, hsm, Option.map_some', Option.some.injEq]
      ext p
      by_cases hp : Call.deleteElement k p ∈ D
      · have : sm.elements p = none := by
          simpa [Call.target, Store.has, Store.hasElement, hsm] using h _ hp
        simp [hp, this]
      · simp [hp]

/-- A delete among the deletes retired leaves its place absent. -/
theorem Store.retire_has_target {D : List Call} {d : Call} (hd : d ∈ D) (hdel : d.IsDelete) :
    (σ.retire D).has d.target = false := by
  cases d <;> simp_all [Call.IsDelete, Call.target, Store.has, Store.retire, Store.hasElement]
  rintro _ - _ - rfl
  simp [hd]

end Places

/-- A property of the store that every call of `cs` keeps holds after them. -/
theorem sendAll_store_induction {I : Store → Prop} : ∀ (cs : List Call) (w : World),
    (∀ c ∈ cs, ∀ σ, I σ → I (σ.apply c).2) → I w.store → I (sendAll cs w).store
  | [], _, _, h => h
  | c :: cs, _, hc, h =>
    sendAll_store_induction cs _ (fun c' h' => hc c' (List.mem_cons_of_mem _ h'))
      (hc c (List.mem_cons_self _ _) _ h)

/-- Sending calls that do not delete keeps every place that is present. -/
theorem has_sendAll {cs : List Call} {w : World} (hc : ∀ c ∈ cs, ¬ c.IsDelete) {x : Slot}
    (h : w.store.has x) : (sendAll cs w).store.has x :=
  sendAll_store_induction (I := fun σ => σ.has x) cs w (fun c h' σ => σ.has_apply (hc c h')) h

/-- Updates keep every shell and every place. -/
theorem Sends.update_store {w w' : World} (h : Sends Call.IsUpdate w w') :
    w'.store.shells = w.store.shells ∧ w'.store.has = w.store.has := by
  obtain ⟨cs, hcs, rfl⟩ := h
  refine sendAll_store_induction (I := fun σ => σ.shells = w.store.shells ∧ σ.has = w.store.has)
    cs w (fun c hc σ hσ => ?_) ⟨rfl, rfl⟩
  cases c <;> simp only [Call.IsUpdate] at hcs
  case updateElement k p b => rw [Store.apply_update_shells, Store.apply_update_has]; exact hσ
  all_goals exact (hcs _ hc).elim

/-- A call that the reconciliation pass may send does not delete. -/
theorem Authorized.not_delete {config : Config} {snap : Snapshot} {host : Host} {now : Nat}
    {c : Call} (h : Authorized config snap host now c) : ¬ c.IsDelete := by
  obtain ⟨-, -, -, t, fid, d, sel, -, -, -, hcall⟩ := h
  cases c <;> simp_all [ExportCall, Call.IsDelete]

/-- A call that a source rule's turn may send does not delete. -/
theorem AuthorizedBy.not_delete {config : Config} {snap : Snapshot} {host : Host} {now : Nat}
    {s : SourceRule} {c : Call} (h : AuthorizedBy config snap host now s c) : ¬ c.IsDelete := by
  obtain ⟨-, t, fid, d, sel, -, -, -, hcall⟩ := h
  cases c <;> simp_all [ExportCall, Call.IsDelete]

/-! ## Stores that mirror the snapshot -/

section Mirror

variable (config : Config) (snap : Snapshot) (host : Host) (now : Nat)

/-- The shell of `t`, the submodel `t:fid`, and every property that feature `d` writes under
`sel`, are present. -/
def Store.Exports (σ : Store) (t fid : String) (d : Feature) (sel : List String) : Prop :=
  σ.has (.shell (encodeId t)) ∧ σ.has (.submodel (encodeId (submodelId t fid))) ∧
    ∀ p v, WritesProperty config host d sel p v → σ.has (.element (encodeId (submodelId t fid)) p)

/-- Every exported feature that a source rule of the policy reports is present in the store, with
its shell and every property that it writes. -/
def Store.Mirrors (σ : Store) : Prop :=
  ∀ s ∈ config.sourceRules, ∀ th t fid d sel, snap.Reports s th fid d → th.thingId = some t →
    resolve config host now s.url (some t) fid = .found sel → σ.Exports config host t fid d sel

variable {config snap host now}

/-- Mirroring depends only on the places that are present. -/
theorem Store.Mirrors.of_has_eq {σ σ' : Store} (h : σ'.has = σ.has)
    (hm : σ.Mirrors config snap host now) : σ'.Mirrors config snap host now := by
  unfold Store.Mirrors Store.Exports at *
  rw [h]
  exact hm

/-- The submodels of a mirroring store cover what the pass writes. -/
theorem Store.Mirrors.covered {σ : Store} (hm : σ.Mirrors config snap host now) :
    Covered config snap host now σ.submodels := by
  intro s hs th t fid d sel hr ht hsel
  obtain ⟨-, hsub, hel⟩ := hm s hs th t fid d sel hr ht hsel
  obtain ⟨sm, hsm⟩ := Option.isSome_iff_exists.mp hsub
  exact ⟨sm, hsm, fun p v hw => by simpa [Store.has, Store.hasElement, hsm] using hel p v hw⟩

/-- Sending calls that do not delete keeps what a feature exports. -/
theorem Store.Exports.sendAll {t fid : String} {d : Feature} {sel : List String} {cs : List Call}
    {w : World} (hc : ∀ c ∈ cs, ¬ c.IsDelete) (hx : w.store.Exports config host t fid d sel) :
    (sendAll cs w).store.Exports config host t fid d sel :=
  ⟨has_sendAll hc hx.1, has_sendAll hc hx.2.1, fun p v hw => has_sendAll hc (hx.2.2 p v hw)⟩

end Mirror

/-! ## A pass makes the store mirror the snapshot -/

section Establish

variable {config : Config} {snap : Snapshot} {host : Host} {now : Nat}

/-- Upserts keep an element that is present. -/
theorem foldl_upsert_keeps (host : Host) {p : String} :
    ∀ (props : List (String × JsonValue)) (sm : Submodel), (sm.elements p).isSome →
      ((props.foldl (fun sm e => sm.upsert host e.1 e.2) sm).elements p).isSome
  | [], _, h => h
  | (q, v) :: props, sm, h =>
    foldl_upsert_keeps host props _ (by by_cases hq : p = q <;> simp [Submodel.upsert, hq, h])

/-- Upserts make every upserted element present. -/
theorem foldl_upsert_mem (host : Host) {p : String} {v : JsonValue} :
    ∀ (props : List (String × JsonValue)) (sm : Submodel), (p, v) ∈ props →
      ((props.foldl (fun sm e => sm.upsert host e.1 e.2) sm).elements p).isSome
  | (q, v') :: props, sm, h => by
    rcases List.mem_cons.mp h with h | h
    · cases h
      exact foldl_upsert_keeps host props _ (by simp [Submodel.upsert])
    · exact foldl_upsert_mem host props _ h

/-- Exporting a feature makes every property that it writes present. -/
theorem exportSubmodel_writes {d : Feature} {sel : List String} {p : String} {v : JsonValue}
    (hw : WritesProperty config host d sel p v) (o : Option Submodel) :
    ((exportSubmodel config host d sel o).elements p).isSome := by
  have hgate : (config.verifySignatures && !verifyFeatureSignature host d config.publicKeyPath) = false := by
    cases hv : config.verifySignatures <;> simp [hw.2.2, hv]
  rw [exportSubmodel, if_neg (by simp [hgate])]
  exact foldl_upsert_mem host _ _ (mem_filterProperties.mpr ⟨hw.1, Dict.mem_of_get? hw.2.1⟩)

/-- An exported feature returns with what it exports present. -/
theorem exportFeature_exports {t fid : String} {h : Bool} {d : Feature} {sel : List String}
    {w : World} (hh : h = true → HasShell t w) :
    Returns (fun w' => w'.store.Exports config host t fid d sel)
      (exportFeature config host (some t) h fid d sel w) :=
  (exportFeature_returns hh).mono fun _ ⟨hs, hsub⟩ =>
    ⟨hs, by simp [Store.has, hsub, exportSubmodels], fun p v hw => by
      simp [Store.has, Store.hasElement, hsub, exportSubmodels, exportSubmodel_writes hw]⟩

/-- The feature loop of a reported thing returns with each of its exported features present. -/
theorem reconcileFeatures_exports (hc : config.WellTimed host.fromisoformat) {s : SourceRule}
    {th : Thing} {t fid : String} {d : Feature} {sel : List String} (ht : th.thingId = some t)
    (hsel : resolve config host now s.url (some t) fid = .found sel) :
    ∀ (h : Bool) (feats : List (String × Feature)) (w : World),
      (∀ e ∈ feats, snap.Reports s th e.1 e.2) → (fid, d) ∈ feats → (h = true → HasShell t w) →
      Returns (fun w' => w'.store.Exports config host t fid d sel)
        (reconcileFeatures config host now s.url (some t) h feats w)
  | h, (fid', d') :: feats, w, hr, hmem, hh => by
    have hr' : ∀ e ∈ feats, snap.Reports s th e.1 e.2 := fun e he => hr e (List.mem_cons_of_mem _ he)
    simp only [reconcileFeatures]
    by_cases hin : (fid, d) ∈ feats
    · exact (reconcileFeature_returns hc s.url hh).bind fun w₁ h₁ =>
        reconcileFeatures_exports hc ht hsel _ feats w₁ hr' hin h₁.1
    · -- the feature is the head: it is exported, and the rest of the loop does not delete
      obtain ⟨rfl, rfl⟩ : fid = fid' ∧ d = d' := by simpa [hin] using hmem
      rw [show reconcileFeature config host now s.url (some t) h fid d w =
        exportFeature config host (some t) h fid d sel w by simp [reconcileFeature, hsel]]
      refine (exportFeature_exports hh).bind fun w₁ h₁ => ?_
      obtain ⟨w', hw', -⟩ : Returns _ (reconcileFeatures config host now s.url (some t) _ feats w₁) :=
        reconcileFeatures_returns hc s.url _ feats w₁ fun _ => h₁.1
      obtain ⟨cs, hcs, he⟩ := sends_reconcileFeatures ht _ feats w₁ hr'
      rw [hw', caught_ok] at he
      exact ⟨w', hw', he ▸ h₁.sendAll fun c h => (hcs c h).not_delete⟩

/-- The thing loop of a source rule returns with each exported feature of a listed thing
present, when every listed thing has an id and its features. -/
theorem reconcileThings_exports (hc : config.WellTimed host.fromisoformat) {s : SourceRule}
    {th : Thing} {t fid : String} {d : Feature} {sel : List String}
    (hr : snap.Reports s th fid d) (ht : th.thingId = some t)
    (hsel : resolve config host now s.url (some t) fid = .found sel) :
    ∀ (ths : List Thing) (w : World), (∀ th' ∈ ths, snap.ReportsThing s th') →
      (∀ th' ∈ ths, th'.thingId.isSome ∧ (snap.features s.url s.auth (pyFormat th'.thingId)).isSome) →
      th ∈ ths →
      Returns (fun w' => w'.store.Exports config host t fid d sel)
        (reconcileThings config snap host now s ths w)
  | th' :: ths, w, hrep, hok, hmem => by
    have hrep' : ∀ th'' ∈ ths, snap.ReportsThing s th'' := fun _ h => hrep _ (List.mem_cons_of_mem _ h)
    have hok' := fun th'' (h : th'' ∈ ths) => hok th'' (List.mem_cons_of_mem _ h)
    by_cases hin : th ∈ ths
    · exact (reconcileThing_returns hc (hok th' (List.mem_cons_self _ _)).1
        (hok th' (List.mem_cons_self _ _)).2).bind fun w₁ _ =>
          reconcileThings_exports hc hr ht hsel ths w₁ hrep' hok' hin
    · -- the thing is the head: its features export it, and the rest of the loop does not delete
      obtain rfl : th = th' := by simpa [hin] using hmem
      obtain ⟨-, feats, hF, he⟩ := hr
      have hthing : reconcileThing config snap host now s th w =
          reconcileFeatures config host now s.url (some t) false feats.entries w := by
        rw [reconcileThing, hF]
        simp only [ht]
      refine Returns.bind (hthing ▸ reconcileFeatures_exports hc ht hsel false feats.entries w
        (fun e he' => ⟨hrep _ (List.mem_cons_self _ _), feats, hF, he'⟩) he
        fun h => absurd h Bool.false_ne_true) fun w₁ h₁ => ?_
      obtain ⟨w', hw', -⟩ := reconcileThings_returns hc ths w₁ hok'
      obtain ⟨cs, hcs, hsend⟩ := sends_reconcileThings ths w₁ hrep'
      rw [hw', caught_ok] at hsend
      exact ⟨w', hw', hsend ▸ h₁.sendAll fun c h => (hcs c h).not_delete⟩

/-- A source rule that reports an exported feature makes it present. -/
theorem reconcileSource_exports (hc : config.WellTimed host.fromisoformat)
    (hs : snap.Serves config) (hid : snap.Identified config) {s : SourceRule}
    (hs' : s ∈ config.sourceRules) {th : Thing} {t fid : String} {d : Feature} {sel : List String}
    (hr : snap.Reports s th fid d) (ht : th.thingId = some t)
    (hsel : resolve config host now s.url (some t) fid = .found sel) (w : World) :
    (reconcileSource config snap host now s w).store.Exports config host t fid d sel := by
  obtain ⟨ths, hths, hf⟩ := hs s hs'
  obtain ⟨ths', hths', hmem⟩ := hr.1
  rw [hths, Option.some.injEq] at hths'
  subst hths'
  obtain ⟨w', hw', hx⟩ : Returns _ (reconcileThings config snap host now s ths w) :=
    reconcileThings_exports hc hr ht hsel ths w (fun th' h => ⟨ths, hths, h⟩)
      (fun th' h => ⟨hid s hs' th' ⟨ths, hths, h⟩, hf th' h⟩) hmem
  simpa [reconcileSource, hths, hw'] using hx

/-- A source rule keeps what a feature exports: it does not delete. -/
theorem reconcileSource_keeps {t fid : String} {d : Feature} {sel : List String} (s : SourceRule)
    {w : World} (hx : w.store.Exports config host t fid d sel) :
    (reconcileSource config snap host now s w).store.Exports config host t fid d sel := by
  obtain ⟨cs, hcs, he⟩ : Sends (AuthorizedBy config snap host now s) w _ :=
    sends_reconcileSource s w
  exact he ▸ hx.sendAll fun c h => (hcs c h).not_delete

/-- After the reconciliation pass, on a well-timed policy when every fetch succeeds and every
listed thing has an id, the store mirrors the snapshot. -/
theorem reconcile_mirrors (hc : config.WellTimed host.fromisoformat) (hs : snap.Serves config)
    (hid : snap.Identified config) (hb : config.basyxConfigured = true) (w : World) :
    (reconcile config snap host now w).store.Mirrors config snap host now := by
  intro s hs' th t fid d sel hr ht hsel
  rw [reconcile, if_neg (by simp [hb])]
  have hkeep : ∀ (ss : List SourceRule) (w : World), w.store.Exports config host t fid d sel →
      (ss.foldl (fun w s => reconcileSource config snap host now s w) w).store.Exports config host
        t fid d sel := by
    intro ss
    induction ss with
    | nil => exact fun _ h => h
    | cons s' ss ih => exact fun w h => ih _ (reconcileSource_keeps s' h)
  suffices ∀ ss : List SourceRule, s ∈ ss → ∀ w,
      (ss.foldl (fun w s => reconcileSource config snap host now s w) w).store.Exports config host
        t fid d sel from this _ hs' w
  intro ss
  induction ss with
  | nil => simp
  | cons s' ss ih =>
    intro hmem w
    by_cases hin : s ∈ ss
    · exact ih hin _
    · obtain rfl : s = s' := by simpa [hin] using hmem
      exact hkeep ss _ (reconcileSource_exports hc hs hid hs' hr ht hsel w)

end Establish

/-! ## A pass over a mirroring store only updates -/

section Update

variable {config : Config} {snap : Snapshot} {host : Host} {now : Nat}

/-- `update_basyx_element` of an element that is present sends one update, which BaSyx
accepts. -/
theorem updateBasyxElement_update {submodel_id p : String} {v : JsonValue} {w : World}
    (hp : w.store.hasElement (encodeId submodel_id) p) :
    Returns (Sends Call.IsUpdate w) (updateBasyxElement host submodel_id p v w) := by
  obtain ⟨sm, hsm, he⟩ : ∃ sm, w.store.submodels (encodeId submodel_id) = some sm ∧
      (sm.elements p).isSome := by
    cases hsm : w.store.submodels (encodeId submodel_id) <;> simp_all [Store.hasElement]
  unfold updateBasyxElement
  rw [if_pos hp, post_eq_ok (by simp [Store.apply, hsm, he])]
  exact returns_ok ⟨[_], by simp [Call.IsUpdate], rfl⟩

/-- The upsert loop over elements that are all present sends updates only. -/
theorem upsertElements_update (submodel_id : String) :
    ∀ (props : List (String × JsonValue)) (w : World),
      (∀ e ∈ props, w.store.hasElement (encodeId submodel_id) e.1) →
      Returns (Sends Call.IsUpdate w) (upsertElements host submodel_id props w)
  | [], _, _ => returns_ok Sends.refl
  | (p, v) :: props, w, h =>
    (updateBasyxElement_update (h _ (List.mem_cons_self _ _))).bind fun w₁ h₁ =>
      (upsertElements_update submodel_id props w₁ fun e he => by
        change w₁.store.has (.element (encodeId submodel_id) e.1) = true
        rw [h₁.update_store.2]
        exact h e (List.mem_cons_of_mem _ he)).mono fun _ h' => h₁.trans h'

/-- An exported feature whose places are all present finds its shell and its submodel, and sends
updates only. -/
theorem exportFeature_update {t fid : String} {h : Bool} {d : Feature} {sel : List String}
    {w : World} (hx : w.store.Exports config host t fid d sel) :
    Returns (Sends Call.IsUpdate w) (exportFeature config host (some t) h fid d sel w) := by
  obtain ⟨hsh, hsub, hel⟩ := hx
  have h₁ : (if h then .ok w else ensureShell (some t) w) = .ok w := by
    cases h <;> simp_all [ensureShell, Store.has]
  have h₂ : ensureSubmodel (some t) (submodelId t fid) w = .ok w := by
    simp_all [ensureSubmodel, Store.has]
  unfold exportFeature
  simp only [pyFormat_some, h₁, h₂, Except.bind]
  split
  · exact returns_ok Sends.refl
  · rename_i hg
    refine upsertElements_update _ _ w fun e he => ?_
    have he' := mem_filterProperties.mp he
    exact hel e.1 e.2 ⟨he'.1, Dict.get?_of_mem he'.2, fun hv => by simpa [hv] using hg⟩

/-- On a mirroring store, the feature loop of a reported thing sends updates only. -/
theorem reconcileFeatures_update (hc : config.WellTimed host.fromisoformat) {s : SourceRule}
    (hs : s ∈ config.sourceRules) {th : Thing} {t : String} (ht : th.thingId = some t) :
    ∀ (h : Bool) (feats : List (String × Feature)) (w : World),
      (∀ e ∈ feats, snap.Reports s th e.1 e.2) → w.store.Mirrors config snap host now →
      Returns (Sends Call.IsUpdate w) (reconcileFeatures config host now s.url (some t) h feats w)
  | _, [], _, _, _ => returns_ok Sends.refl
  | h, (fid, d) :: feats, w, hr, hm => by
    have hstep : Returns (Sends Call.IsUpdate w)
        (reconcileFeature config host now s.url (some t) h fid d w) := by
      unfold reconcileFeature
      cases hsel : resolve config host now s.url (some t) fid with
      | raised => exact absurd hsel (resolve_ne_raised now hc _ _ _)
      | unconfigured => exact returns_ok Sends.refl
      | found sel => exact exportFeature_update (hm s hs th t fid d sel (hr _ (List.mem_cons_self _ _)) ht hsel)
    exact hstep.bind fun w₁ h₁ =>
      (reconcileFeatures_update hc hs ht _ feats w₁ (fun e he => hr e (List.mem_cons_of_mem _ he))
        (hm.of_has_eq h₁.update_store.2)).mono fun _ h' => h₁.trans h'

/-- On a mirroring store, the thing loop of a source rule sends updates only. -/
theorem reconcileThings_update (hc : config.WellTimed host.fromisoformat) {s : SourceRule}
    (hs : s ∈ config.sourceRules) :
    ∀ (ths : List Thing) (w : World), (∀ th ∈ ths, snap.ReportsThing s th) →
      (∀ th ∈ ths, th.thingId.isSome ∧ (snap.features s.url s.auth (pyFormat th.thingId)).isSome) →
      w.store.Mirrors config snap host now →
      Returns (Sends Call.IsUpdate w) (reconcileThings config snap host now s ths w)
  | [], _, _, _, _ => returns_ok Sends.refl
  | th :: ths, w, hrep, hok, hm => by
    obtain ⟨hid, hf⟩ := hok th (List.mem_cons_self _ _)
    obtain ⟨t, ht⟩ := Option.isSome_iff_exists.mp hid
    obtain ⟨feats, hF⟩ := Option.isSome_iff_exists.mp hf
    have hstep : Returns (Sends Call.IsUpdate w) (reconcileThing config snap host now s th w) := by
      rw [reconcileThing, hF]
      simp only [ht]
      exact reconcileFeatures_update hc hs ht false _ w
        (fun e he => ⟨hrep th (List.mem_cons_self _ _), feats, hF, he⟩) hm
    exact hstep.bind fun w₁ h₁ =>
      (reconcileThings_update hc hs ths w₁ (fun th' h => hrep th' (List.mem_cons_of_mem _ h))
        (fun th' h => hok th' (List.mem_cons_of_mem _ h)) (hm.of_has_eq h₁.update_store.2)).mono
        fun _ h' => h₁.trans h'

/-- On a mirroring store, the reconciliation pass sends updates only, on a well-timed policy when
every fetch succeeds and every listed thing has an id. -/
theorem reconcile_updates (hc : config.WellTimed host.fromisoformat) (hs : snap.Serves config)
    (hid : snap.Identified config) {w : World} (hm : w.store.Mirrors config snap host now) :
    Sends Call.IsUpdate w (reconcile config snap host now w) := by
  unfold reconcile
  split
  · exact Sends.refl
  · suffices ∀ ss : List SourceRule, (∀ s ∈ ss, s ∈ config.sourceRules) → ∀ w : World,
        w.store.Mirrors config snap host now →
        Sends Call.IsUpdate w (ss.foldl (fun w s => reconcileSource config snap host now s w) w) from
      this _ (fun _ h => h) w hm
    intro ss
    induction ss with
    | nil => exact fun _ _ _ => Sends.refl
    | cons s ss ih =>
      intro hss w hm
      have hs' := hss s (List.mem_cons_self _ _)
      obtain ⟨ths, hths, hf⟩ := hs s hs'
      obtain ⟨w₁, hw₁, h₁⟩ := reconcileThings_update hc hs' ths w (fun th h => ⟨ths, hths, h⟩)
        (fun th h => ⟨hid s hs' th ⟨ths, hths, h⟩, hf th h⟩) hm
      have hsrc : reconcileSource config snap host now s w = w₁ := by
        simp [reconcileSource, hths, hw₁]
      rw [List.foldl_cons, hsrc]
      exact h₁.trans (ih (fun s' h => hss s' (List.mem_cons_of_mem _ h)) w₁
        (hm.of_has_eq h₁.update_store.2))

end Update

/-! ## Things without an id

`encode_id(None)` raises, so the turn of a thing without an id raises at its first feature that the
resolver answers for, and ends its source rule's turn; before that it sends nothing. The pass
therefore runs as it runs on the listings cut at the first such thing, with the other things
without an id left out (`reconcile_reached`), and the cut listings have ids throughout. -/

section Reached

variable (config : Config) (snap : Snapshot) (host : Host) (now : Nat)

/-- Whether the turn of a thing without an id raises: the fetch of its features at `None` raises,
or the resolver answers for one of them, which then reaches `encode_id(None)` or has raised. -/
def idlessRaises (url auth : String) : Bool :=
  match snap.features url auth "None" with
  | none => true
  | some feats => feats.entries.any fun e => resolve config host now url none e.1 != .unconfigured

/-- The things of a listing that the turn of a source rule reaches and that can write: those with
an id, up to the first thing without an id whose turn raises. -/
def reachedThings (url auth : String) : List Thing → List Thing
  | [] => []
  | th :: ths =>
    match th.thingId with
    | some _ => th :: reachedThings url auth ths
    | none => if idlessRaises config snap host now url auth then [] else reachedThings url auth ths

/-- The snapshot whose listings are cut to the things that the pass reaches. -/
def Snapshot.reached : Snapshot :=
  ⟨fun u a => (snap.things u a).map (reachedThings config snap host now u a), snap.features⟩

/-- The turn of a thing without an id leaves the world, and raises as `idlessRaises` says. -/
theorem reconcileThing_none {s : SourceRule} {th : Thing} (ht : th.thingId = none) (w : World) :
    reconcileThing config snap host now s th w =
      if idlessRaises config snap host now s.url s.auth then .error w else .ok w := by
  unfold reconcileThing idlessRaises
  rw [ht, pyFormat]
  cases snap.features s.url s.auth "None" with
  | none => rfl
  | some feats => exact reconcileFeatures_none_eq s.url _ w

/-- The thing loop ends where it ends on the reached things. -/
theorem caught_reconcileThings_reached (s : SourceRule) : ∀ (ths : List Thing) (w : World),
    caught (reconcileThings config snap host now s ths w) =
      caught (reconcileThings config snap host now s
        (reachedThings config snap host now s.url s.auth ths) w)
  | [], _ => rfl
  | th :: ths, w => by
    cases ht : th.thingId with
    | some t =>
      simp only [reachedThings, ht, reconcileThings]
      cases reconcileThing config snap host now s th w with
      | error w' => rfl
      | ok w' => exact caught_reconcileThings_reached s ths w'
    | none =>
      simp only [reachedThings, ht, reconcileThings, reconcileThing_none config snap host now ht]
      split
      · rfl
      · exact caught_reconcileThings_reached s ths w

/-- The thing loop reads the snapshot only through its features. -/
theorem reconcileThings_reached (s : SourceRule) :
    reconcileThings config (snap.reached config host now) host now s =
      reconcileThings config snap host now s := by
  funext ths
  induction ths with
  | nil => rfl
  | cons th ths ih => funext w; simp only [reconcileThings, ih]; rfl

/-- The reconciliation pass runs as it runs on the reached things. -/
theorem reconcile_reached (w : World) :
    reconcile config snap host now w =
      reconcile config (snap.reached config host now) host now w := by
  unfold reconcile
  congr 1
  congr 1
  funext w s
  unfold reconcileSource
  rw [reconcileThings_reached]
  dsimp only [Snapshot.reached]
  cases snap.things s.url s.auth with
  | none => rfl
  | some ths => exact caught_reconcileThings_reached config snap host now s ths w

/-- A reached thing is listed and has an id. -/
theorem mem_reachedThings {url auth : String} {th : Thing} : ∀ {ths : List Thing},
    th ∈ reachedThings config snap host now url auth ths → th ∈ ths ∧ th.thingId.isSome
  | th' :: ths, h => by
    cases ht : th'.thingId with
    | some t =>
      simp only [reachedThings, ht, List.mem_cons] at h
      rcases h with rfl | h
      · exact ⟨List.mem_cons_self _ _, by simp [ht]⟩
      · exact (mem_reachedThings h).imp_left (List.mem_cons_of_mem _)
    | none =>
      simp only [reachedThings, ht] at h
      split at h
      · cases h
      · exact (mem_reachedThings h).imp_left (List.mem_cons_of_mem _)

variable {config snap}

/-- Every fetch of the reached snapshot succeeds when every fetch of the snapshot does. -/
theorem Snapshot.Serves.reached (hs : snap.Serves config) :
    (snap.reached config host now).Serves config := by
  intro s hs'
  obtain ⟨ths, hths, hf⟩ := hs s hs'
  exact ⟨reachedThings config snap host now s.url s.auth ths,
    by simp only [Snapshot.reached, hths, Option.map_some'],
    fun th h => hf th (mem_reachedThings config snap host now h).1⟩

/-- Every thing that the reached snapshot lists has an id. -/
theorem Snapshot.reached_identified : (snap.reached config host now).Identified config := by
  rintro s - th ⟨ths, hths, hth⟩
  simp only [Snapshot.reached, Option.map_eq_some'] at hths
  obtain ⟨ths, -, rfl⟩ := hths
  exact (mem_reachedThings config snap host now hth).2

end Reached

/-! ## After a first cycle -/

section First

variable {config : Config} {snap : Snapshot} {host : Host} {now : Nat}

/-- After a cycle of an unshared policy, every place that the cleanup pass deletes is absent: the
reconciliation pass writes none of them. -/
theorem cycle_clear (hu : Unshared config snap) (w : World) :
    ∀ d ∈ cleanupCalls config snap host now,
      (cycle config snap host now w).store.has d.target = false := by
  intro d hd
  have hret := cleanupCalls_retired d hd
  obtain ⟨cs, hcs, he⟩ := sends_reconcile (cleanupBasyxResources config snap host now w)
  rw [cycle, he]
  refine sendAll_store_induction (I := fun σ => σ.has d.target = false) cs _
    (fun c hc σ hσ => σ.not_has_apply (retired_authorized_disjoint hu hret (hcs c hc)) hσ) ?_
  rw [cleanup_store]
  exact Store.retire_has_target _ hd hret.isDelete

/-- Without a BaSyx URL a cycle does nothing. -/
theorem cycle_unconfigured (hb : config.basyxConfigured = false) (w : World) :
    cycle config snap host now w = w := by
  simp [cycle, reconcile, cleanupBasyxResources, hb]

/-- From a store that mirrors snapshot `snap'`, on which the reconciliation pass of `snap` runs as
on `snap'`, and that lacks every place that the cleanup pass deletes, a cycle sends the cleanup's
deletes, which change nothing, then element updates only; it keeps every shell and every place,
and the submodels become what `reconcileSubmodels` writes over them. -/
theorem cycle_of_mirrors {snap' : Snapshot} (hc : config.WellTimed host.fromisoformat)
    (hs : snap'.Serves config) (hid : snap'.Identified config)
    (hr : ∀ w, reconcile config snap host now w = reconcile config snap' host now w) {w : World}
    (hm : w.store.Mirrors config snap' host now)
    (hcl : ∀ d ∈ cleanupCalls config snap host now, w.store.has d.target = false) :
    (∃ us, (cycle config snap host now w).log = w.log ++ cleanupCalls config snap host now ++ us ∧
        ∀ c ∈ us, c.IsUpdate) ∧
      (cycle config snap host now w).store.shells = w.store.shells ∧
      (cycle config snap host now w).store.has = w.store.has ∧
      (cycle config snap host now w).store.submodels =
        reconcileSubmodels config host now snap' w.store.submodels := by
  have hst : (cleanupBasyxResources config snap host now w).store = w.store := by
    rw [cleanup_store, Store.retire_of_absent _ hcl]
  have hlog : (cleanupBasyxResources config snap host now w).log =
      w.log ++ cleanupCalls config snap host now := by
    rw [cleanup_eq_sendAll, sendAll_log]
  have hcyc : cycle config snap host now w =
      reconcile config snap' host now (cleanupBasyxResources config snap host now w) := hr _
  have hup := reconcile_updates hc hs hid (hst ▸ hm : (cleanupBasyxResources config snap host now
    w).store.Mirrors config snap' host now)
  obtain ⟨us, hus, he⟩ := id hup
  refine ⟨⟨us, by rw [hcyc, he, sendAll_log, hlog], hus⟩, ?_, ?_, ?_⟩
  · rw [hcyc, hup.update_store.1, hst]
  · rw [hcyc, hup.update_store.2, hst]
  · rw [hcyc, reconcile_submodels hc hs hid, hst]

end First

/-- On a well-timed policy where every place is reached from one (thing, feature) pair, when
every fetch succeeds, a second cycle on a fixed snapshot with one clock value creates nothing and
keeps every shell, with its references, and every place, and a third cycle leaves the store as the
second left it. A thing without an id ends its source rule's turn in every cycle alike. -/
theorem cycle_rerun {config : Config} {snap : Snapshot} {host : Host} {now : Nat}
    (hc : config.WellTimed host.fromisoformat) (hs : snap.Serves config)
    (hu : Unshared config snap) (w : World) :
    let w₁ := cycle config snap host now w
    let w₂ := cycle config snap host now w₁
    (∀ c ∈ w₂.log.drop w₁.log.length, ¬ c.IsCreate) ∧ w₂.store.shells = w₁.store.shells ∧
      w₂.store.has = w₁.store.has ∧ (cycle config snap host now w₂).store = w₂.store := by
  intro w₁ w₂
  cases hb : config.basyxConfigured
  · simp [w₂, w₁, cycle_unconfigured hb]
  · have hr := reconcile_reached config snap host now
    have hs' := hs.reached host now
    have hid' : (snap.reached config host now).Identified config :=
      Snapshot.reached_identified host now
    have hm₁ : w₁.store.Mirrors config (snap.reached config host now) host now := by
      show (reconcile config snap host now _).store.Mirrors _ _ _ _
      rw [hr]
      exact reconcile_mirrors hc hs' hid' hb _
    have hcl₁ : ∀ d ∈ cleanupCalls config snap host now, w₁.store.has d.target = false :=
      cycle_clear hu w
    obtain ⟨⟨us, hlog, hus⟩, hsh, hhas, hsub⟩ := cycle_of_mirrors hc hs' hid' hr hm₁ hcl₁
    obtain ⟨-, hsh₃, -, hsub₃⟩ := cycle_of_mirrors hc hs' hid' hr (hm₁.of_has_eq hhas) fun d hd => by
      rw [hhas]
      exact hcl₁ d hd
    refine ⟨fun c hc' => ?_, hsh, hhas, Store.ext hsh₃ ?_⟩
    · rw [hlog, List.append_assoc, List.drop_left] at hc'
      rcases List.mem_append.mp hc' with hc' | hc'
      · exact (cleanupCalls_retired c hc').isDelete.not_create
      · exact (hus c hc').not_create
    · rw [hsub₃, hsub, reconcileSubmodels_overwrites.idem hm₁.covered]

/-! ## A listing with a thing without an id -/

/-- Source `u` lists thing `a`, a thing without an id, then thing `x`; the features are those of
`pairSnapshot`, so the thing without an id has feature `c` at `None`. -/
def idlessSnapshot : Snapshot :=
  ⟨fun _ _ => some [⟨some "a"⟩, ⟨none⟩, ⟨some "x"⟩], (pairSnapshot []).features⟩

/-- The things of `idlessSnapshot` with ids report one feature each, `b:c` of `a` and `c` of `x`. -/
theorem idlessSnapshot_reports {s : SourceRule} {th : Thing} {t fid : String} {d : Feature}
    (h : idlessSnapshot.Reports s th fid d) (ht : th.thingId = some t) :
    t = "a" ∧ fid = "b:c" ∨ t = "x" ∧ fid = "c" := by
  obtain ⟨⟨ths, hths, hth⟩, feats, hF, he⟩ := h
  simp only [idlessSnapshot, Option.some.injEq] at hths
  subst hths
  simp only [List.mem_cons, List.mem_singleton, List.not_mem_nil, or_false] at hth
  rcases hth with rfl | rfl | rfl <;> cases ht <;> simp [idlessSnapshot, pairSnapshot] at hF <;>
    subst hF <;> simp only [List.mem_singleton, Prod.mk.injEq] at he
  · exact .inl ⟨rfl, he.1⟩
  · exact .inr ⟨rfl, he.1⟩

/-- On `wildcardPolicy`, every place of `idlessSnapshot` is reached from one pair. -/
theorem idlessSnapshot_unshared : Unshared wildcardPolicy idlessSnapshot where
  thing s₁ h₁ s₂ h₂ _ _ _ _ _ _ _ := by
    simp only [wildcardPolicy, Config.sourceRules, Option.getD_some, List.mem_singleton] at h₁ h₂
    subst h₁ h₂
    exact ⟨rfl, rfl⟩
  submodel _ _ _ _ _ _ t₁ t₂ f₁ f₂ _ _ h₁ h₂ ht₁ ht₂ hk := by
    rcases idlessSnapshot_reports h₁ ht₁ with ⟨rfl, rfl⟩ | ⟨rfl, rfl⟩ <;>
      rcases idlessSnapshot_reports h₂ ht₂ with ⟨rfl, rfl⟩ | ⟨rfl, rfl⟩ <;> revert hk <;> decide

/-- Three cycles on a listing whose thing without an id ends the turn of `u` before `x`, from an
empty BaSyx: the first creates the twin of `a` only, and the second and third create nothing. -/
theorem cycle_rerun_idless :
    wildcardPolicy.WellTimed textHost.fromisoformat ∧ idlessSnapshot.Serves wildcardPolicy ∧
      Unshared wildcardPolicy idlessSnapshot ∧ ¬ idlessSnapshot.Identified wildcardPolicy ∧
      let w₁ := cycle wildcardPolicy idlessSnapshot textHost 0 ⟨.empty, []⟩
      let w₂ := cycle wildcardPolicy idlessSnapshot textHost 0 w₁
      (∀ c ∈ w₂.log.drop w₁.log.length, ¬ c.IsCreate) ∧ w₂.store.shells = w₁.store.shells ∧
        w₂.store.has = w₁.store.has ∧
        (cycle wildcardPolicy idlessSnapshot textHost 0 w₂).store = w₂.store :=
  have hs : idlessSnapshot.Serves wildcardPolicy :=
    fun _ _ => ⟨_, rfl, by simp [idlessSnapshot, pairSnapshot]⟩
  ⟨wildcardPolicy_wellTimed, hs, idlessSnapshot_unshared,
    fun h => absurd (h wildcardRule (List.mem_singleton_self _) ⟨none⟩ ⟨_, rfl, by decide⟩)
      (by decide),
    cycle_rerun wildcardPolicy_wellTimed hs idlessSnapshot_unshared _⟩

/-! ## The update path quotes what the create path does not -/

/-- A second cycle changes the store, whatever `str` writes: from an empty BaSyx, the first cycle
on `valueSnapshot v` creates property `p` of `t:f` with `str(v)`, and the second updates it to
`"` + `str(v)` + `"`. -/
theorem cycle_rerun_requotes (str : JsonValue → String) (v : JsonValue) :
    mirrorPolicy.WellTimed fromisoformat2000 ∧ (valueSnapshot v).Serves mirrorPolicy ∧
      Unshared mirrorPolicy (valueSnapshot v) ∧
      (cycle mirrorPolicy (valueSnapshot v) { host2000 with str } 0 ⟨.empty, []⟩).store.value
        (encodeId "t:f") "p" = some (str v) ∧
      (cycle mirrorPolicy (valueSnapshot v) { host2000 with str } 0
        (cycle mirrorPolicy (valueSnapshot v) { host2000 with str } 0 ⟨.empty, []⟩)).store.value
          (encodeId "t:f") "p" = some ("\"" ++ str v ++ "\"") ∧
      "\"" ++ str v ++ "\"" ≠ str v :=
  ⟨mirrorPolicy_wellTimed, fun _ _ => ⟨_, rfl, fun _ _ => rfl⟩, valueSnapshot_unshared v, rfl, rfl,
    quoted_ne _⟩

end TwinExporter
