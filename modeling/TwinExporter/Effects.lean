import TwinExporter.Linkage

/-!
# What a cycle does to the submodels

The two passes, seen from BaSyx's submodels. The cleanup pass only deletes, and deletes do not
depend on their order: the store after it is `retire` of its calls, which removes each deleted
shell and submodel and each deleted element (`cleanup_store`). The reconciliation pass, when no
request raises, turns each submodel into what `exportSubmodel` makes of it, for each exported
feature in turn: create it empty when missing, then upsert each filtered property past the gate
(`reconcile_submodels`). `reconcileSubmodels` is that second description, written over the
policy and the snapshot with no request in it; it is what the later theorems compute with.

No request of the reconciliation pass raises when the policy is well timed (the resolver does
not raise), every fetch succeeds, and every reported thing has an id (`encode_id(None)` raises).
The proof carries the shell of the thing through its feature loop, as `Linkage.lean` does, since
the reference to a new submodel is posted to it.
-/

namespace TwinExporter

/-! ## Deletes -/

/-- The store after the deletes `D`, in any order: a deleted shell or submodel is gone, and a
deleted element of a remaining submodel is gone. -/
def Store.retire (σ : Store) (D : List Call) : Store :=
  ⟨fun k => if .deleteShell k ∈ D then none else σ.shells k,
    fun k => if .deleteSubmodel k ∈ D then none else
      (σ.submodels k).map fun sm => ⟨fun p => if .deleteElement k p ∈ D then none else sm.elements p⟩⟩

/-- Retiring nothing changes nothing. -/
theorem Store.retire_nil (σ : Store) : σ.retire [] = σ := by
  apply Store.ext <;> funext k
  · simp [Store.retire]
  · cases h : σ.submodels k <;> simp [Store.retire, h]

/-- A delete, then more deletes, is all of them. -/
theorem Store.retire_cons (σ : Store) {c : Call} (hc : c.IsDelete) (D : List Call) :
    ((σ.apply c).2).retire D = σ.retire (c :: D) := by
  cases c with
  | deleteShell k =>
    apply Store.ext <;> funext k'
    · by_cases h : k' = k <;> simp [Store.retire, Store.apply, h]
    · simp [Store.retire, Store.apply]
  | deleteSubmodel k =>
    apply Store.ext <;> funext k'
    · simp [Store.retire, Store.apply]
    · by_cases h : k' = k <;> simp [Store.retire, Store.apply, h]
  | deleteElement k p =>
    simp only [Store.apply]
    split <;> rename_i hsm <;> apply Store.ext <;> funext k'
    · simp [Store.retire]
    · by_cases h : k' = k
      · subst h; simp [Store.retire, hsm]
      · simp [Store.retire, h]
    · simp [Store.retire]
    · by_cases h : k' = k
      · subst h
        simp only [Store.retire, setSubmodel_submodels, if_true, hsm, Option.map_some',
          List.mem_cons, reduceCtorEq, false_or, Call.deleteElement.injEq, true_and]
        split
        · rfl
        · congr 1; ext q
          by_cases hq : q = p <;> simp [hq]
      · simp [Store.retire, h]
  | _ => exact hc.elim

/-- Sending deletes retires them. -/
theorem sendAll_deletes : ∀ (D : List Call) (w : World), (∀ c ∈ D, c.IsDelete) →
    (sendAll D w).store = w.store.retire D
  | [], w, _ => (Store.retire_nil _).symm
  | c :: D, w, h => by
    rw [sendAll_cons, sendAll_deletes D _ fun c' h' => h c' (List.mem_cons_of_mem _ h'), send_store,
      Store.retire_cons _ (h c (List.mem_cons_self _ _))]

/-- Retiring depends on the deletes only as a set. -/
theorem Store.retire_congr (σ : Store) {D D' : List Call} (h : ∀ c, c ∈ D ↔ c ∈ D') :
    σ.retire D = σ.retire D' := by
  simp only [Store.retire, h]

/-- A call that the cleanup pass may send deletes. -/
theorem Retired.isDelete {config : Config} {snap : Snapshot} {host : Host} {now : Nat} {c : Call}
    (h : Retired config snap host now c) : c.IsDelete := by
  cases c <;> first | exact trivial | exact (h : False).elim

/-- The cleanup pass retires its calls. -/
theorem cleanup_store (config : Config) (snap : Snapshot) (host : Host) (now : Nat) (w : World) :
    (cleanupBasyxResources config snap host now w).store =
      w.store.retire (cleanupCalls config snap host now) := by
  rw [cleanup_eq_sendAll]
  exact sendAll_deletes _ _ fun c hc => (cleanupCalls_retired c hc).isDelete

/-! ## Writes -/

/-- What `update_basyx_element` does to a submodel that exists: it creates the element with
`str(value)`, or updates it with `"` + `str(value)` + `"`. -/
def Submodel.upsert (host : Host) (sm : Submodel) (p : String) (v : JsonValue) : Submodel :=
  sm.set p (some (if (sm.elements p).isSome then "\"" ++ host.str v ++ "\"" else host.str v))

/-- Setting a submodel to what it is changes nothing. -/
theorem Store.setSubmodel_self {σ : Store} {k : String} {sm : Option Submodel}
    (h : σ.submodels k = sm) : σ.setSubmodel k sm = σ := by
  apply Store.ext <;> funext k'
  · rfl
  · by_cases hk : k' = k <;> simp [hk, h]

/-- The second of two settings of a submodel wins. -/
@[simp] theorem Store.setSubmodel_setSubmodel (σ : Store) (k : String) (a b : Option Submodel) :
    (σ.setSubmodel k a).setSubmodel k b = σ.setSubmodel k b := by
  apply Store.ext <;> funext k'
  · rfl
  · by_cases hk : k' = k <;> simp [hk]

section Export

variable (config : Config) (host : Host) (now : Nat)

/-- What exporting feature `d` under property list `sel` does to its submodel: it is created empty
when missing, then, past the gate, each filtered property is upserted in order. -/
def exportSubmodel (d : Feature) (sel : List String) (o : Option Submodel) : Submodel :=
  if config.verifySignatures && !verifyFeatureSignature host d config.publicKeyPath then o.getD .empty
  else (filterProperties sel d.bundle).foldl (fun sm e => sm.upsert host e.1 e.2) (o.getD .empty)

/-- The submodels after feature `fid` of thing `t`, with data `d`, is exported under `sel`. -/
def exportSubmodels (t fid : String) (d : Feature) (sel : List String)
    (m : String → Option Submodel) : String → Option Submodel :=
  fun k => if k = encodeId (submodelId t fid) then some (exportSubmodel config host d sel (m k)) else m k

/-- The submodels after the feature loop of thing `t` of a source at `url`: each feature that the
resolver exports, in turn. -/
def featuresSubmodels (url t : String) :
    List (String × Feature) → (String → Option Submodel) → String → Option Submodel
  | [], m => m
  | (fid, d) :: feats, m =>
    featuresSubmodels url t feats
      (match resolve config host now url (some t) fid with
        | .found sel => exportSubmodels config host t fid d sel m
        | _ => m)

/-- The submodels after the thing loop of source rule `s`. -/
def thingsSubmodels (snap : Snapshot) (s : SourceRule) :
    List Thing → (String → Option Submodel) → String → Option Submodel
  | [], m => m
  | th :: ths, m =>
    thingsSubmodels snap s ths
      (match th.thingId, snap.features s.url s.auth (pyFormat th.thingId) with
        | some t, some feats => featuresSubmodels config host now s.url t feats.entries m
        | _, _ => m)

/-- The submodels after the reconciliation pass: every source rule in turn. -/
def reconcileSubmodels (snap : Snapshot) (m : String → Option Submodel) : String → Option Submodel :=
  if !config.basyxConfigured then m
  else config.sourceRules.foldl (fun m s =>
    thingsSubmodels config host now snap s ((snap.things s.url s.auth).getD []) m) m

/-! The same, one submodel at a time: what the loops do to the submodel at token `k` depends only on
that submodel (`featuresSubmodels_apply`, `thingsSubmodels_apply`). -/

/-- What the feature loop of thing `t` does to the submodel at token `k`. -/
def featuresSlot (url t k : String) : List (String × Feature) → Option Submodel → Option Submodel
  | [], o => o
  | (fid, d) :: feats, o =>
    featuresSlot url t k feats
      (match resolve config host now url (some t) fid with
        | .found sel => if k = encodeId (submodelId t fid) then some (exportSubmodel config host d sel o) else o
        | _ => o)

/-- The feature loop changes the submodel at token `k` as `featuresSlot` says, from that
submodel alone. -/
theorem featuresSubmodels_apply (url t k : String) :
    ∀ (feats : List (String × Feature)) (m : String → Option Submodel),
      featuresSubmodels config host now url t feats m k = featuresSlot config host now url t k feats (m k)
  | [], _ => rfl
  | (fid, d) :: feats, m => by
    simp only [featuresSubmodels, featuresSlot]
    rw [featuresSubmodels_apply url t k feats]
    congr 1
    cases resolve config host now url (some t) fid <;> simp [exportSubmodels]

variable (snap : Snapshot)

/-- What the thing loop of source rule `s` does to the submodel at token `k`. -/
def thingsSlot (s : SourceRule) (k : String) : List Thing → Option Submodel → Option Submodel
  | [], o => o
  | th :: ths, o =>
    thingsSlot s k ths
      (match th.thingId, snap.features s.url s.auth (pyFormat th.thingId) with
        | some t, some feats => featuresSlot config host now s.url t k feats.entries o
        | _, _ => o)

/-- The thing loop changes the submodel at token `k` as `thingsSlot` says, from that
submodel alone. -/
theorem thingsSubmodels_apply (s : SourceRule) (k : String) :
    ∀ (ths : List Thing) (m : String → Option Submodel),
      thingsSubmodels config host now snap s ths m k = thingsSlot config host now snap s k ths (m k)
  | [], _ => rfl
  | th :: ths, m => by
    simp only [thingsSubmodels, thingsSlot]
    rw [thingsSubmodels_apply s k ths]
    congr 1
    cases th.thingId <;> cases snap.features s.url s.auth _ <;> simp [featuresSubmodels_apply]

end Export

/-- Every thing that a source rule of the policy reports has an id. -/
def Snapshot.Identified (snap : Snapshot) (config : Config) : Prop :=
  ∀ s ∈ config.sourceRules, ∀ th, snap.ReportsThing s th → th.thingId.isSome

/-! ## No request raises -/

/-- `x` returns, with a world satisfying `Q`. -/
def Returns (Q : World → Prop) (x : Except World World) : Prop := ∃ w, x = .ok w ∧ Q w

section Returns

variable {Q R : World → Prop} {w : World}

/-- A piece that returns `w` returns a world satisfying what `w` satisfies. -/
theorem returns_ok (h : Q w) : Returns Q (.ok w) := ⟨w, rfl, h⟩

/-- A bind returns when its first part returns, and its second part does from every world
that the first returns. -/
theorem Returns.bind {x : Except World World} {g : World → Except World World}
    (hx : Returns Q x) (hg : ∀ w, Q w → Returns R (g w)) : Returns R (x.bind g) := by
  obtain ⟨w, rfl, hw⟩ := hx
  exact hg w hw

/-- A weaker postcondition holds of a piece that returns. -/
theorem Returns.mono {x : Except World World} (hx : Returns Q x) (h : ∀ w, Q w → R w) :
    Returns R x := by
  obtain ⟨w, rfl, hw⟩ := hx
  exact ⟨w, rfl, h w hw⟩

end Returns

section Pass

variable {config : Config} {snap : Snapshot} {host : Host} {now : Nat} {t : String} {w : World}

/-- `update_basyx_element` in a submodel that exists returns with the property upserted. -/
theorem updateBasyxElement_returns {submodel_id p : String} {v : JsonValue} {sm : Submodel}
    (hsm : w.store.submodels (encodeId submodel_id) = some sm) :
    Returns (fun w' => w'.store = w.store.setSubmodel (encodeId submodel_id) (some (sm.upsert host p v)))
      (updateBasyxElement host submodel_id p v w) := by
  unfold updateBasyxElement
  by_cases he : w.store.hasElement (encodeId submodel_id) p
  · have hp : (sm.elements p).isSome := by simpa [Store.hasElement, hsm] using he
    rw [if_pos he, post_eq_ok (by simp [Store.apply, hsm, hp])]
    exact returns_ok (by simp [Store.apply, hsm, hp, Submodel.upsert])
  · have hp : (sm.elements p).isSome = false := by simpa [Store.hasElement, hsm] using he
    rw [if_neg he, post_eq_ok (by simp [Store.apply, hsm, hp])]
    exact returns_ok (by simp [Store.apply, hsm, hp, Submodel.upsert])

/-- The upsert loop in a submodel that exists returns with each property upserted in turn. -/
theorem upsertElements_returns (submodel_id : String) :
    ∀ (props : List (String × JsonValue)) (w : World) (sm : Submodel),
      w.store.submodels (encodeId submodel_id) = some sm →
      Returns (fun w' => w'.store = w.store.setSubmodel (encodeId submodel_id)
          (some (props.foldl (fun sm e => sm.upsert host e.1 e.2) sm)))
        (upsertElements host submodel_id props w)
  | [], w, _, hsm => returns_ok (Store.setSubmodel_self hsm).symm
  | (p, v) :: props, w, sm, hsm =>
    (updateBasyxElement_returns hsm).bind fun w₁ h₁ =>
      (upsertElements_returns submodel_id props w₁ (sm.upsert host p v) (by simp [h₁])).mono
        fun w' h => by
        rw [h, h₁, Store.setSubmodel_setSubmodel, List.foldl_cons]

/-- `get_basyx_shell`, then `create_basyx_shell` on a missing shell, returns with the shell and
the submodels as they were. -/
theorem ensureShell_returns :
    Returns (fun w' => HasShell t w' ∧ w'.store.submodels = w.store.submodels) (ensureShell (some t) w) := by
  simp only [ensureShell]
  split
  · rename_i hs
    exact returns_ok ⟨hs, rfl⟩
  · rename_i hs
    rw [post_eq_ok (by simp [Store.apply, hs])]
    exact returns_ok ⟨by simp [HasShell, Store.apply, hs], by simp [Store.apply, hs]⟩

/-- With the shell of `t` there, `get_basyx_submodel`, then `create_basyx_submodel` on a missing
submodel, returns with the submodel, empty when it was missing. -/
theorem ensureSubmodel_returns (submodel_id : String) (hs : HasShell t w) :
    Returns (fun w' => HasShell t w' ∧ w'.store.submodels = (w.store.setSubmodel (encodeId submodel_id)
        (some ((w.store.submodels (encodeId submodel_id)).getD .empty))).submodels)
      (ensureSubmodel (some t) submodel_id w) := by
  unfold ensureSubmodel
  split
  · rename_i hsub
    obtain ⟨sm, hsm⟩ := Option.isSome_iff_exists.mp hsub
    exact returns_ok ⟨hs, by rw [hsm, Option.getD_some, Store.setSubmodel_self hsm]⟩
  · rename_i hsub
    obtain ⟨sh, hsh⟩ := Option.isSome_iff_exists.mp hs
    simp only [createBasyxSubmodel]
    rw [post_eq_ok (by simp [Store.apply, hsub])]
    simp only [Except.bind]
    rw [post_eq_ok (by simp [Store.apply, hsub, hsh])]
    refine returns_ok ⟨by simp [HasShell, Store.apply, hsub, hsh], ?_⟩
    have hnone : w.store.submodels (encodeId submodel_id) = none := by simpa using hsub
    simp [Store.apply, hsub, hsh, hnone]

/-- An exported feature returns with the shell of its thing and its submodel as `exportSubmodel`
makes it, given the shell when an earlier feature made sure of it. -/
theorem exportFeature_returns {h : Bool} {fid : String} {d : Feature} {sel : List String}
    (hh : h = true → HasShell t w) :
    Returns (fun w' => HasShell t w' ∧
        w'.store.submodels = exportSubmodels config host t fid d sel w.store.submodels)
      (exportFeature config host (some t) h fid d sel w) := by
  unfold exportFeature
  dsimp only
  refine Returns.bind (Q := fun w₂ => HasShell t w₂ ∧ w₂.store.submodels =
      (w.store.setSubmodel (encodeId (submodelId t fid))
        (some ((w.store.submodels (encodeId (submodelId t fid))).getD .empty))).submodels)
    (Returns.bind (Q := fun w₁ => HasShell t w₁ ∧ w₁.store.submodels = w.store.submodels) ?_
      fun w₁ h₁ => ?_) fun w₂ h₂ => ?_
  · cases h
    · exact ensureShell_returns
    · exact returns_ok ⟨hh rfl, rfl⟩
  · refine (ensureSubmodel_returns _ h₁.1).mono fun w₂ h₂ => ⟨h₂.1, ?_⟩
    rw [h₂.2]
    funext k
    simp [h₁.2]
  · have hsm : w₂.store.submodels (encodeId (submodelId t fid)) =
        some ((w.store.submodels (encodeId (submodelId t fid))).getD .empty) := by simp [h₂.2]
    split
    · rename_i hg
      refine returns_ok ⟨h₂.1, ?_⟩
      rw [h₂.2]
      funext k
      by_cases hk : k = encodeId (submodelId t fid) <;> simp [exportSubmodels, exportSubmodel, hk, hg]
    · rename_i hg
      refine (upsertElements_returns _ _ w₂ _ hsm).mono fun w' h => ⟨?_, ?_⟩
      · simpa [HasShell, h] using h₂.1
      · rw [h]
        funext k
        by_cases hk : k = encodeId (submodelId t fid)
        · simp [exportSubmodels, exportSubmodel, hk, hg]
        · simp [exportSubmodels, hk, h₂.2]

/-- On a well-timed policy, one iteration of the feature loop returns: with the submodels that
the resolver's answer gives, and with the shell of `t` when the flag it passes on is set. -/
theorem reconcileFeature_returns (hc : config.WellTimed host.fromisoformat) (url : String)
    {h : Bool} {fid : String} {d : Feature} (hh : h = true → HasShell t w) :
    Returns (fun w' => ((h || (resolve config host now url (some t) fid).isFound) = true →
        HasShell t w') ∧
        w'.store.submodels = match resolve config host now url (some t) fid with
          | .found sel => exportSubmodels config host t fid d sel w.store.submodels
          | _ => w.store.submodels)
      (reconcileFeature config host now url (some t) h fid d w) := by
  unfold reconcileFeature
  cases hr : resolve config host now url (some t) fid with
  | raised => exact absurd hr (resolve_ne_raised now hc _ _ _)
  | unconfigured => exact returns_ok ⟨by simpa [Resolution.isFound] using hh, rfl⟩
  | found sel => exact (exportFeature_returns hh).mono fun w' h' => ⟨fun _ => h'.1, h'.2⟩

/-- On a well-timed policy, the feature loop of a thing with an id returns with the submodels that
`featuresSubmodels` gives. -/
theorem reconcileFeatures_returns (hc : config.WellTimed host.fromisoformat) (url : String) :
    ∀ (h : Bool) (feats : List (String × Feature)) (w : World), (h = true → HasShell t w) →
      Returns (fun w' => w'.store.submodels = featuresSubmodels config host now url t feats w.store.submodels)
        (reconcileFeatures config host now url (some t) h feats w)
  | _, [], _, _ => returns_ok rfl
  | h, (fid, d) :: feats, w, hh =>
    (reconcileFeature_returns hc url hh).bind fun w₁ h₁ =>
      (reconcileFeatures_returns hc url _ feats w₁ h₁.1).mono fun w' h' => by
        rw [h', h₁.2]
        rfl

/-- A thing that a source reports returns with the submodels that its features give, when it has
an id and its features are fetched. -/
theorem reconcileThing_returns (hc : config.WellTimed host.fromisoformat) {s : SourceRule}
    {th : Thing} (hid : th.thingId.isSome)
    (hf : (snap.features s.url s.auth (pyFormat th.thingId)).isSome) :
    Returns (fun w' => w'.store.submodels =
        match th.thingId, snap.features s.url s.auth (pyFormat th.thingId) with
        | some t, some feats => featuresSubmodels config host now s.url t feats.entries w.store.submodels
        | _, _ => w.store.submodels)
      (reconcileThing config snap host now s th w) := by
  obtain ⟨t, ht⟩ := Option.isSome_iff_exists.mp hid
  obtain ⟨feats, hfeats⟩ := Option.isSome_iff_exists.mp hf
  unfold reconcileThing
  rw [hfeats]
  simp only [ht]
  exact reconcileFeatures_returns hc _ false _ w fun h => absurd h Bool.false_ne_true

/-- The thing loop of a source rule returns with the submodels that `thingsSubmodels` gives. -/
theorem reconcileThings_returns (hc : config.WellTimed host.fromisoformat) {s : SourceRule} :
    ∀ (ths : List Thing) (w : World), (∀ th ∈ ths, th.thingId.isSome ∧
        (snap.features s.url s.auth (pyFormat th.thingId)).isSome) →
      Returns (fun w' => w'.store.submodels = thingsSubmodels config host now snap s ths w.store.submodels)
        (reconcileThings config snap host now s ths w)
  | [], _, _ => returns_ok rfl
  | th :: ths, w, h => by
    have ⟨hid, hf⟩ := h th (List.mem_cons_self _ _)
    refine (reconcileThing_returns hc hid hf).bind fun w₁ h₁ => ?_
    refine (reconcileThings_returns hc ths w₁ fun th' h' => h th' (List.mem_cons_of_mem _ h')).mono
      fun w' h' => ?_
    rw [h', h₁]
    rfl

/-- On a well-timed policy, when every fetch succeeds and every reported thing has an id, no
request of the reconciliation pass raises, and the submodels after it are those that
`reconcileSubmodels` gives. -/
theorem reconcile_submodels (hc : config.WellTimed host.fromisoformat) (hs : snap.Serves config)
    (hid : snap.Identified config) (w : World) :
    (reconcile config snap host now w).store.submodels =
      reconcileSubmodels config host now snap w.store.submodels := by
  unfold reconcile reconcileSubmodels
  split
  · rfl
  · suffices ∀ ss : List SourceRule, (∀ s ∈ ss, s ∈ config.sourceRules) → ∀ w : World,
        (ss.foldl (fun w s => reconcileSource config snap host now s w) w).store.submodels =
          ss.foldl (fun m s => thingsSubmodels config host now snap s
            ((snap.things s.url s.auth).getD []) m) w.store.submodels from this _ (fun _ h => h) w
    intro ss
    induction ss with
    | nil => intro _ _; rfl
    | cons s ss ih =>
      intro hss w
      have hs' := hss s (List.mem_cons_self _ _)
      obtain ⟨ths, hths, hf⟩ := hs s hs'
      obtain ⟨w', hw', h'⟩ : Returns _ (reconcileThings config snap host now s ths w) :=
        reconcileThings_returns hc ths w fun th h =>
        ⟨hid s hs' th ⟨ths, hths, h⟩, hf th h⟩
      simp only [List.foldl_cons]
      rw [ih (fun s' h => hss s' (List.mem_cons_of_mem _ h))]
      simp only [reconcileSource, hths, hw', caught_ok, h', Option.getD_some]

end Pass

end TwinExporter
