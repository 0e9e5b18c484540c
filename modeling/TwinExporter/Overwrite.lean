import TwinExporter.Crosstalk

/-!
# A pass over a store that holds its places

When every submodel that the reconciliation pass writes is present, with every property that it
writes (`Covered`), each upsert takes the update path and stores `"` + `str(value)` + `"`,
whatever the element held. The pass then writes fixed values over the store, which do not depend
on what the store held: it is `overwriteAll W` for one `W` (`reconcileSubmodels_overwrites`), and
running it again changes nothing (`Overwrites.idem`).

The proof follows the loops of `reconcileSubmodels`: `Overwrites` holds of one exported feature
(`exportSubmodels_overwrites`), and composes along the feature, thing and source loops, since
writing over a covered store leaves it covered.
-/

namespace TwinExporter

/-! ## Writing values over submodels -/

/-- The submodel with the values of `V` written over its elements. -/
def Submodel.overwrite (sm : Submodel) (V : String → Option String) : Submodel :=
  ⟨fun p => (V p).or (sm.elements p)⟩

/-- An overwritten element holds the new value, or the old one where there is none. -/
@[simp] theorem Submodel.overwrite_elements (sm : Submodel) (V : String → Option String)
    (p : String) : (sm.overwrite V).elements p = (V p).or (sm.elements p) := rfl

/-- Overwriting with nothing leaves a submodel. -/
@[simp] theorem Submodel.overwrite_none (sm : Submodel) : sm.overwrite (fun _ => none) = sm := by
  ext p
  simp

/-- Two overwrites are one, the later values first. -/
theorem Submodel.overwrite_overwrite (sm : Submodel) (V₁ V₂ : String → Option String) :
    (sm.overwrite V₁).overwrite V₂ = sm.overwrite fun p => (V₂ p).or (V₁ p) := by
  ext p
  simp [Option.or_assoc]

/-- The submodels with the values of `W k` written over the elements of the submodel at `k`. -/
def overwriteAll (W : String → String → Option String) (m : String → Option Submodel) :
    String → Option Submodel :=
  fun k => (m k).map (·.overwrite (W k))

/-- Overwriting every submodel with nothing leaves the submodels. -/
@[simp] theorem overwriteAll_none (m : String → Option Submodel) :
    overwriteAll (fun _ _ => none) m = m := by
  funext k
  cases h : m k <;> simp [overwriteAll, h]

/-- Two overwrites of every submodel are one, the later values first. -/
theorem overwriteAll_overwriteAll (W₁ W₂ : String → String → Option String)
    (m : String → Option Submodel) :
    overwriteAll W₂ (overwriteAll W₁ m) = overwriteAll (fun k p => (W₂ k p).or (W₁ k p)) m := by
  funext k
  cases h : m k <;> simp [overwriteAll, h, Submodel.overwrite_overwrite]

/-- Writing the same values twice is writing them once. -/
theorem overwriteAll_idem (W : String → String → Option String) (m : String → Option Submodel) :
    overwriteAll W (overwriteAll W m) = overwriteAll W m := by
  simp only [overwriteAll_overwriteAll, Option.or_self]

/-! ## Upserts over existing elements -/

section Upsert

variable (host : Host)

/-- An upsert of an existing element writes the quoted value over it. -/
theorem Submodel.upsert_of_isSome {sm : Submodel} {p : String} (v : JsonValue)
    (h : (sm.elements p).isSome) :
    sm.upsert host p v = sm.overwrite fun q => if q = p then some ("\"" ++ host.str v ++ "\"") else none := by
  ext q
  by_cases hq : q = p
  · subst hq
    simp [Submodel.upsert, h]
  · simp [Submodel.upsert, hq]

/-- Upserting properties that all exist writes values over them that do not depend on the
submodel. -/
theorem foldl_upsert_overwrite :
    ∀ props : List (String × JsonValue), ∃ V, ∀ sm : Submodel,
      (∀ e ∈ props, (sm.elements e.1).isSome) →
        props.foldl (fun sm e => sm.upsert host e.1 e.2) sm = sm.overwrite V
  | [] => ⟨fun _ => none, fun sm _ => sm.overwrite_none.symm⟩
  | (p, v) :: props => by
    obtain ⟨V, hV⟩ := foldl_upsert_overwrite props
    refine ⟨fun q => (V q).or (if q = p then some ("\"" ++ host.str v ++ "\"") else none),
      fun sm h => ?_⟩
    rw [List.foldl_cons, Submodel.upsert_of_isSome host v (h _ (List.mem_cons_self _ _)), hV,
      Submodel.overwrite_overwrite]
    intro e he
    simp [h e (List.mem_cons_of_mem _ he)]

end Upsert

/-! ## Covered stores -/

section Covered

variable (config : Config) (snap : Snapshot) (host : Host) (now : Nat)

/-- Every submodel that the pass writes is present, with every property that it writes. -/
def Covered (m : String → Option Submodel) : Prop :=
  ∀ s ∈ config.sourceRules, ∀ th t fid d sel, snap.Reports s th fid d → th.thingId = some t →
    resolve config host now s.url (some t) fid = .found sel →
      ∃ sm, m (encodeId (submodelId t fid)) = some sm ∧
        ∀ p v, WritesProperty config host d sel p v → (sm.elements p).isSome

/-- Writing values over a covered store leaves it covered. -/
theorem Covered.overwriteAll {m : String → Option Submodel} (h : Covered config snap host now m)
    (W : String → String → Option String) : Covered config snap host now (overwriteAll W m) := by
  intro s hs th t fid d sel hr ht hsel
  obtain ⟨sm, hsm, hp⟩ := h s hs th t fid d sel hr ht hsel
  exact ⟨sm.overwrite (W (encodeId (submodelId t fid))), by simp [TwinExporter.overwriteAll, hsm],
    fun p v hw => by simp [hp p v hw]⟩

/-- On covered stores, `g` writes values over the submodels that do not depend on the store. -/
def Overwrites (g : (String → Option Submodel) → String → Option Submodel) : Prop :=
  ∃ W, ∀ m, Covered config snap host now m → g m = overwriteAll W m

variable {config snap host now}

/-- Leaving the submodels is an overwrite with nothing. -/
theorem overwrites_id : Overwrites config snap host now id :=
  ⟨fun _ _ => none, fun m _ => (overwriteAll_none m).symm⟩

/-- Two overwrites in turn are an overwrite. -/
theorem Overwrites.comp {f g : (String → Option Submodel) → String → Option Submodel}
    (hf : Overwrites config snap host now f) (hg : Overwrites config snap host now g) :
    Overwrites config snap host now (g ∘ f) := by
  obtain ⟨W₁, h₁⟩ := hf
  obtain ⟨W₂, h₂⟩ := hg
  refine ⟨fun k p => (W₂ k p).or (W₁ k p), fun m hm => ?_⟩
  rw [Function.comp_apply, h₁ m hm, h₂ _ (hm.overwriteAll _ _ _ _ W₁), overwriteAll_overwriteAll]

/-- On a covered store, running a function that overwrites twice is running it once. -/
theorem Overwrites.idem {g : (String → Option Submodel) → String → Option Submodel}
    (hg : Overwrites config snap host now g) {m : String → Option Submodel}
    (hm : Covered config snap host now m) : g (g m) = g m := by
  obtain ⟨W, hW⟩ := hg
  rw [hW m hm, hW _ (hm.overwriteAll _ _ _ _ W), overwriteAll_idem]

/-! ## The loops of the pass overwrite -/

/-- Exporting a reported feature that the resolver exports writes values over its submodel. -/
theorem exportSubmodels_overwrites {s : SourceRule} {th : Thing} {t fid : String} {d : Feature}
    {sel : List String} (hs : s ∈ config.sourceRules) (hr : snap.Reports s th fid d)
    (ht : th.thingId = some t) (hsel : resolve config host now s.url (some t) fid = .found sel) :
    Overwrites config snap host now (exportSubmodels config host t fid d sel) := by
  obtain ⟨V, hV⟩ := foldl_upsert_overwrite host (filterProperties sel d.bundle)
  let gated := config.verifySignatures && !verifyFeatureSignature host d config.publicKeyPath
  refine ⟨fun k => if k = encodeId (submodelId t fid) ∧ gated = false then V else fun _ => none,
    fun m hm => funext fun k => ?_⟩
  obtain ⟨sm, hsm, hp⟩ := hm s hs th t fid d sel hr ht hsel
  by_cases hk : k = encodeId (submodelId t fid)
  · subst hk
    simp only [exportSubmodels, exportSubmodel, if_true, hsm, Option.getD_some, overwriteAll,
      Option.map_some', true_and]
    cases hg : gated
    · -- past the gate, every filtered property is written, so it is present
      have hpass : config.verifySignatures = true →
          verifyFeatureSignature host d config.publicKeyPath = true := by
        intro hv
        simpa [gated, hv] using hg
      rw [if_neg (by simpa [gated] using hg), hV sm fun e he => ?_]
      · simp
      · have he' := mem_filterProperties.mp he
        exact hp e.1 e.2 ⟨he'.1, Dict.get?_of_mem he'.2, hpass⟩
    · simp [show (config.verifySignatures && !verifyFeatureSignature host d config.publicKeyPath) = true from hg]
  · cases m k <;> simp [exportSubmodels, overwriteAll, hk]

/-- The feature loop of a reported thing overwrites. -/
theorem featuresSubmodels_overwrites {s : SourceRule} {th : Thing} {t : String}
    (hs : s ∈ config.sourceRules) (ht : th.thingId = some t) :
    ∀ feats : List (String × Feature), (∀ e ∈ feats, snap.Reports s th e.1 e.2) →
      Overwrites config snap host now (featuresSubmodels config host now s.url t feats)
  | [], _ => overwrites_id
  | (fid, d) :: feats, h => by
    have hstep : Overwrites config snap host now fun m =>
        match resolve config host now s.url (some t) fid with
        | .found sel => exportSubmodels config host t fid d sel m
        | _ => m := by
      cases hsel : resolve config host now s.url (some t) fid
      case found sel => exact exportSubmodels_overwrites hs (h _ (List.mem_cons_self _ _)) ht hsel
      all_goals exact overwrites_id
    exact hstep.comp (featuresSubmodels_overwrites hs ht feats fun e he => h e (List.mem_cons_of_mem _ he))

/-- The thing loop of a source rule of the policy overwrites. -/
theorem thingsSubmodels_overwrites {s : SourceRule} (hs : s ∈ config.sourceRules) :
    ∀ ths : List Thing, (∀ th ∈ ths, snap.ReportsThing s th) →
      Overwrites config snap host now (thingsSubmodels config host now snap s ths)
  | [], _ => overwrites_id
  | th :: ths, h => by
    have hstep : Overwrites config snap host now fun m =>
        match th.thingId, snap.features s.url s.auth (pyFormat th.thingId) with
        | some t, some feats => featuresSubmodels config host now s.url t feats.entries m
        | _, _ => m := by
      cases ht : th.thingId with
      | none => exact overwrites_id
      | some t =>
        cases hF : snap.features s.url s.auth (pyFormat (some t)) with
        | none => exact overwrites_id
        | some feats =>
          exact featuresSubmodels_overwrites hs ht _ fun e he =>
            ⟨h th (List.mem_cons_self _ _), feats, by rw [ht]; exact hF, he⟩
    exact hstep.comp (thingsSubmodels_overwrites hs ths fun th' h' => h th' (List.mem_cons_of_mem _ h'))

/-- The reconciliation pass, over a covered store, writes values that do not depend on the
store. -/
theorem reconcileSubmodels_overwrites :
    Overwrites config snap host now (reconcileSubmodels config host now snap) := by
  unfold reconcileSubmodels
  cases config.basyxConfigured
  · exact overwrites_id
  · suffices ∀ ss : List SourceRule, (∀ s ∈ ss, s ∈ config.sourceRules) →
        Overwrites config snap host now fun m => ss.foldl (fun m s =>
          thingsSubmodels config host now snap s ((snap.things s.url s.auth).getD []) m) m from
      this _ fun _ h => h
    intro ss
    induction ss with
    | nil => exact fun _ => overwrites_id
    | cons s ss ih =>
      intro hss
      have hs := hss s (List.mem_cons_self _ _)
      exact (thingsSubmodels_overwrites hs _ fun th h => reportsThing_of_mem h).comp
        (ih fun s' h => hss s' (List.mem_cons_of_mem _ h))

end Covered

end TwinExporter
