import TwinExporter.Rerun

/-!
# One source's failure and the other sources

The reconciliation pass runs each source rule inside its own `try`; the cleanup pass runs its
whole first phase inside one. Two runs of a cycle from the same BaSyx, the second seeing some
fetches with one URL and header raise (`Snapshot.FailsAt`), therefore differ in two ways. One fetch
that raises cancels every delete of the cleanup pass, the deletions of every other source rule
included (`cleanupCalls_nil_of_raise`, and `cycle_failure_cancels_cleanup` for a BaSyx where this
leaves a submodel that the first run deletes). The reconciliation turn of every source rule with
another URL or header sends the same calls in both runs (`cycle_failure_isolated`), when every
place is reached from one (thing, feature) pair (`Unshared`).

The proof is relational. What a request does depends only on which places are present
(`Call.accepted`, `Call.present`), so a piece of the pass sends the same calls from two stores
that agree on the places it reads (`SameCalls`). The places of the other sources form a closed
set that no call of the failing source and no delete of either cleanup touches, so the two runs
agree on it before every turn.
-/

namespace TwinExporter

/-! ## What a call does to the places that are present -/

section Presence

variable (σ : Store)

/-- A call outside place `x` keeps it as present or absent as it was. -/
theorem Store.has_apply_of_not_covers {c : Call} {x : Slot} (hx : ¬ c.target.Covers x) :
    (σ.apply c).2.has x = σ.has x := by
  rw [Store.has_apply_eq]
  cases c <;> cases x <;> simp_all [Call.present, Call.target, Slot.Covers]

end Presence

/-! ## Stores that agree on a set of places -/

/-- The two stores hold the same places of `S`. -/
def Store.AgreeOn (S : Slot → Prop) (σ₁ σ₂ : Store) : Prop :=
  ∀ x, S x → σ₁.has x = σ₂.has x

/-- With an element, a set of places holds its submodel. -/
def Slot.Closed (S : Slot → Prop) : Prop :=
  ∀ k p, S (.element k p) → S (.submodel k)

section Agree

variable {S : Slot → Prop} {σ₁ σ₂ σ₃ : Store}

/-- A store agrees with itself. -/
theorem Store.AgreeOn.refl (σ : Store) : σ.AgreeOn S σ := fun _ _ => rfl

/-- Agreement on a set of places is symmetric. -/
theorem Store.AgreeOn.symm (h : σ₁.AgreeOn S σ₂) : σ₂.AgreeOn S σ₁ := fun x hx => (h x hx).symm

/-- Agreement on a set of places is transitive. -/
theorem Store.AgreeOn.trans (h₁ : σ₁.AgreeOn S σ₂) (h₂ : σ₂.AgreeOn S σ₃) : σ₁.AgreeOn S σ₃ :=
  fun x hx => (h₁ x hx).trans (h₂ x hx)

/-- The same call to a place of a closed set is accepted by both stores or by neither, and
keeps them agreeing. -/
theorem Store.AgreeOn.apply (hS : Slot.Closed S) (h : σ₁.AgreeOn S σ₂) {c : Call}
    (ht : S c.target) : (σ₁.apply c).1 = (σ₂.apply c).1 ∧
      (σ₁.apply c).2.AgreeOn S (σ₂.apply c).2 := by
  refine ⟨?_, fun x hx => ?_⟩
  · rw [Store.apply_fst, Store.apply_fst]
    cases c <;> simp only [Call.target] at ht <;> simp [Call.accepted, h _ ht]
    all_goals rw [h _ (hS _ _ ht)]
  · rw [Store.has_apply_eq, Store.has_apply_eq]
    cases c <;> simp only [Call.target] at ht <;> simp [Call.present, h _ hx]
    all_goals rw [h _ (hS _ _ ht)]

/-- A call outside every place of `S` keeps a store agreeing with another. -/
theorem Store.AgreeOn.apply_left {c : Call} (hc : ∀ x, S x → ¬ c.target.Covers x)
    (h : σ₁.AgreeOn S σ₂) : (σ₁.apply c).2.AgreeOn S σ₂ :=
  fun x hx => (σ₁.has_apply_of_not_covers (hc x hx)).trans (h x hx)

end Agree

/-- Sending the same calls to places of a closed set keeps two worlds agreeing. -/
theorem Store.AgreeOn.sendAll {S : Slot → Prop} (hS : Slot.Closed S) :
    ∀ (cs : List Call) {w₁ w₂ : World}, (∀ c ∈ cs, S c.target) →
      w₁.store.AgreeOn S w₂.store → (TwinExporter.sendAll cs w₁).store.AgreeOn S
        (TwinExporter.sendAll cs w₂).store
  | [], _, _, _, h => h
  | c :: cs, _, _, hc, h =>
    Store.AgreeOn.sendAll hS cs (fun c' h' => hc c' (List.mem_cons_of_mem _ h'))
      (h.apply hS (hc c (List.mem_cons_self _ _))).2

/-- Sending calls outside every place of `S` keeps a world agreeing with another. -/
theorem Store.AgreeOn.sendAll_left {S : Slot → Prop} :
    ∀ (cs : List Call) {w₁ : World} {σ₂ : Store}, (∀ c ∈ cs, ∀ x, S x → ¬ c.target.Covers x) →
      w₁.store.AgreeOn S σ₂ → (TwinExporter.sendAll cs w₁).store.AgreeOn S σ₂
  | [], _, _, _, h => h
  | c :: cs, _, _, hc, h =>
    Store.AgreeOn.sendAll_left cs (fun c' h' => hc c' (List.mem_cons_of_mem _ h'))
      (h.apply_left (hc c (List.mem_cons_self _ _)))

/-! ## Pieces that read only a set of places -/

/-- From two worlds whose stores agree on `S`, `f` sends the same calls, all to places of `S`,
and both runs return or both raise. -/
def SameCalls (S : Slot → Prop) (f : World → Except World World) : Prop :=
  ∀ w₁ w₂ : World, w₁.store.AgreeOn S w₂.store → ∃ cs, (∀ c ∈ cs, S c.target) ∧
    ((f w₁ = .ok (sendAll cs w₁) ∧ f w₂ = .ok (sendAll cs w₂)) ∨
      (f w₁ = .error (sendAll cs w₁) ∧ f w₂ = .error (sendAll cs w₂)))

section SameCalls

variable {S : Slot → Prop}

/-- Returning at once sends no call from either store. -/
theorem sameCalls_ok : SameCalls S .ok := fun _ _ _ => ⟨[], by simp, .inl ⟨rfl, rfl⟩⟩

/-- Raising at once sends no call from either store. -/
theorem sameCalls_error : SameCalls S .error := fun _ _ _ => ⟨[], by simp, .inr ⟨rfl, rfl⟩⟩

/-- A post to a place of a closed set. -/
theorem sameCalls_post (hS : Slot.Closed S) {c : Call} (ht : S c.target) :
    SameCalls S (·.post c) := by
  intro w₁ w₂ h
  refine ⟨[c], by simpa using ht, ?_⟩
  simp only [World.post, World.send, (h.apply hS ht).1]
  cases (w₂.store.apply c).1
  · exact .inr ⟨rfl, rfl⟩
  · exact .inl ⟨rfl, rfl⟩

/-- A bind of pieces that read only a closed set of places. -/
theorem SameCalls.bind (hS : Slot.Closed S) {f : World → Except World World}
    {g : World → Except World World} (hf : SameCalls S f) (hg : SameCalls S g) :
    SameCalls S fun w => (f w).bind g := by
  intro w₁ w₂ h
  obtain ⟨cs, hcs, ⟨h₁, h₂⟩ | ⟨h₁, h₂⟩⟩ := hf w₁ w₂ h
  · obtain ⟨ds, hds, hg'⟩ := hg _ _ (h.sendAll hS cs hcs)
    refine ⟨cs ++ ds, fun c hc => (List.mem_append.mp hc).elim (hcs c) (hds c), ?_⟩
    simpa only [h₁, h₂, Except.bind, sendAll_append] using hg'
  · exact ⟨cs, hcs, .inr ⟨by simp only [h₁]; rfl, by simp only [h₂]; rfl⟩⟩

/-- A choice on whether a place of `S` is present. -/
theorem SameCalls.ite {x : Slot} (hx : S x) {f g : World → Except World World}
    (hf : SameCalls S f) (hg : SameCalls S g) :
    SameCalls S fun w => if w.store.has x then f w else g w := by
  intro w₁ w₂ h
  dsimp only
  rw [h x hx]
  split
  · exact hf w₁ w₂ h
  · exact hg w₁ w₂ h

end SameCalls

/-! ## The reconciliation pass reads the places it writes -/

/-- The feature loop of a thing without an id raises at its first exported feature, before any
call: `ensure_shell(None)` raises. -/
theorem reconcileFeatures_none_same {S : Slot → Prop} {config : Config} {host : Host} {now : Nat}
    {url : String} :
    ∀ feats : List (String × Feature), SameCalls S (reconcileFeatures config host now url none false feats)
  | [] => sameCalls_ok
  | (fid, d) :: feats => by
    show SameCalls S fun w => (reconcileFeature config host now url none false fid d w).bind
      (reconcileFeatures config host now url none (false || (resolve config host now url none fid).isFound) feats)
    unfold reconcileFeature
    cases resolve config host now url none fid with
    | raised => exact sameCalls_error
    | unconfigured => exact reconcileFeatures_none_same feats
    | found sel => exact sameCalls_error

/-- `S` holds the places that exporting feature `d` of thing `t` under `sel` writes. -/
def FeaturePlaces (config : Config) (host : Host) (S : Slot → Prop) (t fid : String) (d : Feature)
    (sel : List String) : Prop :=
  S (.shell (encodeId t)) ∧ S (.submodel (encodeId (submodelId t fid))) ∧
    ∀ p v, WritesProperty config host d sel p v → S (.element (encodeId (submodelId t fid)) p)

/-- A set that holds the target of every call that source rule `s` authorizes holds the places of
each feature it exports. -/
theorem featurePlaces_of_authorizedBy {S : Slot → Prop} {config : Config} {snap : Snapshot}
    {host : Host} {now : Nat} {s : SourceRule}
    (hs : ∀ c, AuthorizedBy config snap host now s c → S c.target) {th : Thing} {t fid : String}
    {d : Feature} {sel : List String} (hr : snap.Reports s th fid d) (ht : th.thingId = some t)
    (hsel : resolve config host now s.url (some t) fid = .found sel) :
    FeaturePlaces config host S t fid d sel :=
  ⟨hs (.createShell t) ⟨th, t, fid, d, sel, hr, ht, hsel, rfl⟩,
    hs (.createSubmodel _) ⟨th, t, fid, d, sel, hr, ht, hsel, rfl⟩,
    fun p v hw => hs (.createElement _ p (host.str v)) ⟨th, t, fid, d, sel, hr, ht, hsel, rfl, v, hw, rfl⟩⟩

section Pieces

variable {S : Slot → Prop} (hS : Slot.Closed S)
variable {config : Config} {snap : Snapshot} {host : Host} {now : Nat}
include hS

/-- `update_basyx_element` reads and writes one element. -/
theorem updateBasyxElement_same {submodel_id p : String} {v : JsonValue}
    (hp : S (.element (encodeId submodel_id) p)) :
    SameCalls S (updateBasyxElement host submodel_id p v) :=
  SameCalls.ite hp (sameCalls_post hS hp) (sameCalls_post hS hp)

/-- The upsert loop over elements of `S` sends the same calls from two stores that agree on
`S`. -/
theorem upsertElements_same (submodel_id : String) :
    ∀ props : List (String × JsonValue), (∀ e ∈ props, S (.element (encodeId submodel_id) e.1)) →
      SameCalls S (upsertElements host submodel_id props)
  | [], _ => sameCalls_ok
  | (_, _) :: props, h =>
    (updateBasyxElement_same hS (h _ (List.mem_cons_self _ _))).bind hS
      (upsertElements_same submodel_id props fun e he => h e (List.mem_cons_of_mem _ he))

/-- Making sure of a shell of `S` sends the same calls from two stores that agree on `S`. -/
theorem ensureShell_same {t : String} (ht : S (.shell (encodeId t))) :
    SameCalls S (ensureShell (some t)) :=
  SameCalls.ite ht sameCalls_ok (sameCalls_post hS ht)

/-- Making sure of a submodel of `S`, and of the shell that references it, sends the same
calls from two stores that agree on `S`. -/
theorem ensureSubmodel_same {t submodel_id : String} (ht : S (.shell (encodeId t)))
    (hsub : S (.submodel (encodeId submodel_id))) :
    SameCalls S (ensureSubmodel (some t) submodel_id) :=
  SameCalls.ite hsub sameCalls_ok
    ((sameCalls_post (c := .createSubmodel submodel_id) hS hsub).bind hS
      (sameCalls_post (c := .postSubmodelRef (encodeId t) submodel_id) hS ht))

/-- Exporting a feature whose places are in `S` sends the same calls from two stores that
agree on `S`. -/
theorem exportFeature_same {t fid : String} {h : Bool} {d : Feature} {sel : List String}
    (hp : FeaturePlaces config host S t fid d sel) :
    SameCalls S (exportFeature config host (some t) h fid d sel) := by
  obtain ⟨hsh, hsub, hel⟩ := hp
  have hfirst : SameCalls S fun w => if h then .ok w else ensureShell (some t) w := by
    cases h
    · exact ensureShell_same hS hsh
    · exact sameCalls_ok
  have hlast : SameCalls S fun w =>
      if config.verifySignatures && !verifyFeatureSignature host d config.publicKeyPath then .ok w
      else upsertElements host (submodelId t fid) (filterProperties sel d.bundle) w := by
    split
    · exact sameCalls_ok
    · rename_i hg
      refine upsertElements_same hS _ _ fun e he => ?_
      have he' := mem_filterProperties.mp he
      exact hel e.1 e.2 ⟨he'.1, Dict.get?_of_mem he'.2, fun hv => by simpa [hv] using hg⟩
  unfold exportFeature
  simp only [pyFormat_some]
  exact (hfirst.bind hS (ensureSubmodel_same hS hsh hsub)).bind hS hlast

/-- One iteration of the feature loop whose places are in `S` sends the same calls from two
stores that agree on `S`. -/
theorem reconcileFeature_same {url t fid : String} {h : Bool} {d : Feature}
    (hp : ∀ sel, resolve config host now url (some t) fid = .found sel →
      FeaturePlaces config host S t fid d sel) :
    SameCalls S (reconcileFeature config host now url (some t) h fid d) := by
  unfold reconcileFeature
  cases hr : resolve config host now url (some t) fid with
  | raised => exact sameCalls_error
  | unconfigured => exact sameCalls_ok
  | found sel => exact exportFeature_same hS (hp sel hr)

/-- The feature loop of a thing whose exported features' places are in `S` sends the same
calls from two stores that agree on `S`. -/
theorem reconcileFeatures_same {url t : String} :
    ∀ (h : Bool) (feats : List (String × Feature)), (∀ e ∈ feats, ∀ sel,
      resolve config host now url (some t) e.1 = .found sel → FeaturePlaces config host S t e.1 e.2 sel) →
        SameCalls S (reconcileFeatures config host now url (some t) h feats)
  | _, [], _ => sameCalls_ok
  | _, (_, _) :: feats, hp =>
    (reconcileFeature_same hS (hp _ (List.mem_cons_self _ _))).bind hS
      (reconcileFeatures_same _ feats fun e he => hp e (List.mem_cons_of_mem _ he))

/-- A thing of source rule `s` whose reported features that the resolver exports all write
places of `S`. -/
theorem reconcileThing_same {s : SourceRule} {th : Thing} (hth : snap.ReportsThing s th)
    (hp : ∀ t fid d sel, snap.Reports s th fid d → th.thingId = some t →
      resolve config host now s.url (some t) fid = .found sel → FeaturePlaces config host S t fid d sel) :
    SameCalls S (reconcileThing config snap host now s th) := by
  unfold reconcileThing
  cases hF : snap.features s.url s.auth (pyFormat th.thingId) with
  | none => exact sameCalls_error
  | some feats =>
    have hr : ∀ e ∈ feats.entries, snap.Reports s th e.1 e.2 := fun e he => ⟨hth, feats, hF, he⟩
    cases ht : th.thingId with
    | none => exact reconcileFeatures_none_same _
    | some t => exact reconcileFeatures_same hS false _ fun e he sel => hp t e.1 e.2 sel (hr e he) ht

/-- The thing loop of a source rule whose exported features' places are in `S` sends the
same calls from two stores that agree on `S`. -/
theorem reconcileThings_same {s : SourceRule}
    (hp : ∀ th t fid d sel, snap.Reports s th fid d → th.thingId = some t →
      resolve config host now s.url (some t) fid = .found sel → FeaturePlaces config host S t fid d sel) :
    ∀ ths : List Thing, (∀ th ∈ ths, snap.ReportsThing s th) →
      SameCalls S (reconcileThings config snap host now s ths)
  | [], _ => sameCalls_ok
  | th :: ths, h =>
    (reconcileThing_same hS (h th (List.mem_cons_self _ _)) (hp th)).bind hS
      (reconcileThings_same hp ths fun th' h' => h th' (List.mem_cons_of_mem _ h'))

/-- A source rule whose authorized calls all write places of `S` sends the same calls from two
worlds that agree on `S`, inside its `try`. -/
theorem reconcileSource_same {s : SourceRule}
    (hs : ∀ c, AuthorizedBy config snap host now s c → S c.target) {w₁ w₂ : World}
    (h : w₁.store.AgreeOn S w₂.store) : ∃ cs, (∀ c ∈ cs, S c.target) ∧
      reconcileSource config snap host now s w₁ = sendAll cs w₁ ∧
        reconcileSource config snap host now s w₂ = sendAll cs w₂ := by
  have hf : SameCalls S fun w => match snap.things s.url s.auth with
      | none => .error w
      | some ths => reconcileThings config snap host now s ths w := by
    cases hT : snap.things s.url s.auth with
    | none => exact sameCalls_error
    | some ths =>
      exact reconcileThings_same hS (fun _ _ _ _ _ hr ht hsel => featurePlaces_of_authorizedBy hs hr ht hsel)
        ths fun th h => ⟨ths, hT, h⟩
  obtain ⟨cs, hcs, ⟨h₁, h₂⟩ | ⟨h₁, h₂⟩⟩ := hf w₁ w₂ h <;>
    exact ⟨cs, hcs, congrArg caught h₁, congrArg caught h₂⟩

end Pieces

/-! ## A run in which the fetches of one URL and header may raise -/

/-- Snapshot `snap₂` answers every fetch as `snap₁` does, except that fetches with URL `url` and
header `auth`, of things or of features, may raise. -/
structure Snapshot.FailsAt (snap₁ snap₂ : Snapshot) (url auth : String) : Prop where
  /-- A listing of things is the same, or it raised and was fetched with `url` and `auth`. -/
  things : ∀ u a, snap₂.things u a = snap₁.things u a ∨ u = url ∧ a = auth ∧ snap₂.things u a = none
  /-- A fetch of features is the same, or it raised and was fetched with `url` and `auth`. -/
  features : ∀ u a id, snap₂.features u a id = snap₁.features u a id ∨
    u = url ∧ a = auth ∧ snap₂.features u a id = none

namespace Snapshot.FailsAt

variable {snap₁ snap₂ : Snapshot} {url auth : String} (hf : snap₁.FailsAt snap₂ url auth)
variable {config : Config} {host : Host} {now : Nat}
include hf

/-- A listing that the second snapshot answers, the first answers alike. -/
theorem things_of_some {u a : String} {ths : List Thing} (h : snap₂.things u a = some ths) :
    snap₁.things u a = some ths := by
  rcases hf.things u a with e | ⟨-, -, e⟩ <;> rw [e] at h
  · exact h
  · cases h

/-- Features that the second snapshot answers, the first answers alike. -/
theorem features_of_some {u a id : String} {feats : Dict Feature}
    (h : snap₂.features u a id = some feats) : snap₁.features u a id = some feats := by
  rcases hf.features u a id with e | ⟨-, -, e⟩ <;> rw [e] at h
  · exact h
  · cases h

/-- Fetches with another URL or header answer the same. -/
theorem things_eq {u a : String} (hne : u ≠ url ∨ a ≠ auth) : snap₂.things u a = snap₁.things u a :=
  (hf.things u a).resolve_right fun ⟨hu, ha, _⟩ => hne.elim (· hu) (· ha)

/-- Fetches of features with another URL or header answer the same. -/
theorem features_eq {u a : String} (hne : u ≠ url ∨ a ≠ auth) :
    snap₂.features u a = snap₁.features u a :=
  funext fun id => (hf.features u a id).resolve_right fun ⟨hu, ha, _⟩ => hne.elim (· hu) (· ha)

/-- What the second snapshot reports, the first reports. -/
theorem reportsThing {s : SourceRule} {th : Thing} (h : snap₂.ReportsThing s th) :
    snap₁.ReportsThing s th :=
  let ⟨ths, hths, hm⟩ := h
  ⟨ths, hf.things_of_some hths, hm⟩

/-- A feature that the second snapshot reports, the first reports with the same data. -/
theorem reports {s : SourceRule} {th : Thing} {fid : String} {d : Feature}
    (h : snap₂.Reports s th fid d) : snap₁.Reports s th fid d :=
  let ⟨hth, feats, hF, he⟩ := h
  ⟨hf.reportsThing hth, feats, hf.features_of_some hF, he⟩

/-- What the second run authorizes, the first authorizes. -/
theorem authorizedBy {s : SourceRule} {c : Call} (h : AuthorizedBy config snap₂ host now s c) :
    AuthorizedBy config snap₁ host now s c :=
  let ⟨th, t, fid, d, sel, hr, ht, hsel, hc⟩ := h
  ⟨th, t, fid, d, sel, hf.reports hr, ht, hsel, hc⟩

/-- What the second run retires, the first retires. -/
theorem retired {c : Call} (h : Retired config snap₂ host now c) : Retired config snap₁ host now c := by
  cases c with
  | deleteShell k =>
    obtain ⟨s, hs, th, t, feats, hth, rest⟩ := h
    obtain ⟨ht, hne, hF, rest⟩ := rest
    exact ⟨s, hs, th, t, feats, hf.reportsThing hth, ht, hne, hf.features_of_some hF, rest⟩
  | deleteSubmodel k =>
    obtain ⟨s, hs, th, t, fid, d, hr, rest⟩ := h
    exact ⟨s, hs, th, t, fid, d, hf.reports hr, rest⟩
  | deleteElement k p =>
    obtain ⟨s, hs, th, t, fid, d, sel, hr, rest⟩ := h
    exact ⟨s, hs, th, t, fid, d, sel, hf.reports hr, rest⟩
  | _ => exact h.elim

/-- A source rule with another URL or header runs the same in both. -/
theorem reconcileSource_eq {s : SourceRule} (hne : s.url ≠ url ∨ s.auth ≠ auth) :
    reconcileSource config snap₂ host now s = reconcileSource config snap₁ host now s := by
  have hth : ∀ th, reconcileThing config snap₂ host now s th = reconcileThing config snap₁ host now s th :=
    fun th => by unfold reconcileThing; rw [hf.features_eq hne]
  have hths : ∀ ths, reconcileThings config snap₂ host now s ths =
      reconcileThings config snap₁ host now s ths := by
    intro ths
    induction ths with
    | nil => rfl
    | cons th ths ih => funext w; simp only [reconcileThings, hth, ih]
  funext w
  simp only [reconcileSource, hf.things_eq hne, hths]

end Snapshot.FailsAt

/-! ## The places of the other source rules -/

section Other

variable {config : Config} {snap : Snapshot} {host : Host} {now : Nat} {url auth : String}

/-- The places that the source rules of the policy with another URL or header than `url` and
`auth` may write. -/
def OtherPlaces (config : Config) (snap : Snapshot) (host : Host) (now : Nat) (url auth : String)
    (x : Slot) : Prop :=
  ∃ s ∈ config.sourceRules, (s.url ≠ url ∨ s.auth ≠ auth) ∧
    ∃ c, AuthorizedBy config snap host now s c ∧ c.target = x

/-- With an element it writes, a source rule writes its submodel. -/
theorem otherPlaces_closed : Slot.Closed (OtherPlaces config snap host now url auth) := by
  rintro k p ⟨s, hs, hne, c, ⟨th, t, fid, d, sel, hr, ht, hsel, hc⟩, hx⟩
  refine ⟨s, hs, hne, .createSubmodel (submodelId t fid), ⟨th, t, fid, d, sel, hr, ht, hsel, rfl⟩, ?_⟩
  rcases exportCall_target hc with e | e | ⟨p', v, e, -⟩ <;> rw [e] at hx <;> cases hx
  rfl

/-- On an unshared policy, a call of one source rule covers a place that another writes only
when the two fetch from the same URL with the same header. -/
theorem Unshared.sameFetch_of_covers (hu : Unshared config snap) {s₁ s₂ : SourceRule}
    {c₁ c₂ : Call} (hs₁ : s₁ ∈ config.sourceRules) (hs₂ : s₂ ∈ config.sourceRules)
    (h₁ : AuthorizedBy config snap host now s₁ c₁) (h₂ : AuthorizedBy config snap host now s₂ c₂)
    (hcov : c₁.target.Covers c₂.target) : s₁.url = s₂.url ∧ s₁.auth = s₂.auth := by
  obtain ⟨th₁, t₁, f₁, d₁, sel₁, hr₁, ht₁, -, hc₁⟩ := h₁
  obtain ⟨th₂, t₂, f₂, d₂, sel₂, hr₂, ht₂, -, hc₂⟩ := h₂
  suffices t₁ = t₂ by
    subst this
    exact hu.thing s₁ hs₁ s₂ hs₂ th₁ th₂ t₁ hr₁.1 hr₂.1 ht₁ ht₂
  -- both places are of one thing, or of one submodel, which one thing's feature writes
  have hsub : encodeId (submodelId t₂ f₂) = encodeId (submodelId t₁ f₁) → t₁ = t₂ := fun hk =>
    (hu.submodel s₁ hs₁ s₂ hs₂ th₁ th₂ t₁ t₂ f₁ f₂ d₁ d₂ hr₁ hr₂ ht₁ ht₂ (encodeId_injective hk).symm).1
  rcases exportCall_target hc₁ with e₁ | e₁ | ⟨p₁, v₁, e₁, -⟩ <;>
    rcases exportCall_target hc₂ with e₂ | e₂ | ⟨p₂, v₂, e₂, -⟩ <;> rw [e₁, e₂] at hcov <;>
    simp only [Slot.Covers, Slot.shell.injEq, Slot.submodel.injEq, Slot.element.injEq,
      reduceCtorEq] at hcov
  · exact (encodeId_injective hcov).symm
  · exact hsub hcov
  · exact hsub hcov
  · exact hsub hcov.1

/-- A call of a source rule that fetches with `url` and `auth` covers none of the other places. -/
theorem otherPlaces_not_covers_of_same (hu : Unshared config snap) {s : SourceRule} {c : Call}
    (hs : s ∈ config.sourceRules) (hsame : ¬ (s.url ≠ url ∨ s.auth ≠ auth))
    (hc : AuthorizedBy config snap host now s c) :
    ∀ x, OtherPlaces config snap host now url auth x → ¬ c.target.Covers x := by
  rintro _ ⟨s₂, hs₂, hne, c₂, hc₂, rfl⟩ hcov
  obtain ⟨hurl, hauth⟩ := hu.sameFetch_of_covers hs hs₂ hc hc₂ hcov
  rw [← hurl, ← hauth] at hne
  exact hsame hne

/-- A delete of the cleanup pass covers none of the places that the pass of the same snapshot
writes. -/
theorem otherPlaces_not_covers_of_retired (hu : Unshared config snap) {d : Call}
    (hd : Retired config snap host now d) :
    ∀ x, OtherPlaces config snap host now url auth x → ¬ d.target.Covers x := by
  rintro _ ⟨s, hs, -, c, hc, rfl⟩
  exact retired_authorized_disjoint hu hd ⟨s, hs, hc⟩

end Other

/-! ## The turns of the source loop -/

/-- The calls that each turn of the source loop sends, with the source rule of the turn. -/
def reconcileTurns (config : Config) (snap : Snapshot) (host : Host) (now : Nat) :
    List SourceRule → World → List (SourceRule × List Call)
  | [], _ => []
  | s :: ss, w =>
    (s, (reconcileSource config snap host now s w).log.drop w.log.length) ::
      reconcileTurns config snap host now ss (reconcileSource config snap host now s w)

/-- The turns of the source loop of a cycle, after its cleanup pass: none without a BaSyx URL. -/
def cycleTurns (config : Config) (snap : Snapshot) (host : Host) (now : Nat) (w : World) :
    List (SourceRule × List Call) :=
  if config.basyxConfigured then
    reconcileTurns config snap host now config.sourceRules (cleanupBasyxResources config snap host now w)
  else []

section Turns

variable {config : Config} {host : Host} {now : Nat}

/-- The source loop logs the calls of each of its turns, in order. -/
theorem foldl_reconcileSource_log {snap : Snapshot} : ∀ (ss : List SourceRule) (w : World),
    (ss.foldl (fun w s => reconcileSource config snap host now s w) w).log =
      w.log ++ ((reconcileTurns config snap host now ss w).map Prod.snd).flatten
  | [], w => by simp [reconcileTurns]
  | s :: ss, w => by
    obtain ⟨cs, hlog, -⟩ : ∃ cs, (reconcileSource config snap host now s w).log = w.log ++ cs ∧ _ :=
      (sends_reconcileSource s w).log
    simp [reconcileTurns, foldl_reconcileSource_log ss, hlog]

/-- A cycle logs its cleanup pass, then the calls of each turn of its source loop. -/
theorem cycle_log_turns (snap : Snapshot) (w : World) :
    (cycle config snap host now w).log = (cleanupBasyxResources config snap host now w).log ++
      ((cycleTurns config snap host now w).map Prod.snd).flatten := by
  unfold cycle reconcile cycleTurns
  split_ifs <;> simp_all [foldl_reconcileSource_log]

variable {snap₁ snap₂ : Snapshot} {url auth : String}

/-- From stores that agree on the other places, the turns of the source rules with another URL
or header send the same calls in both runs. -/
theorem reconcileTurns_isolated (hu : Unshared config snap₁) (hf : snap₁.FailsAt snap₂ url auth) :
    ∀ ss : List SourceRule, (∀ s ∈ ss, s ∈ config.sourceRules) → ∀ {w₁ w₂ : World},
      w₁.store.AgreeOn (OtherPlaces config snap₁ host now url auth) w₂.store →
        (reconcileTurns config snap₁ host now ss w₁).filter
            (fun e => e.1.url != url || e.1.auth != auth) =
          (reconcileTurns config snap₂ host now ss w₂).filter
            (fun e => e.1.url != url || e.1.auth != auth)
  | [], _, _, _, _ => rfl
  | s :: ss, hss, w₁, w₂, h => by
    have hs := hss s (List.mem_cons_self _ _)
    have hss' : ∀ s' ∈ ss, s' ∈ config.sourceRules := fun s' h' => hss s' (List.mem_cons_of_mem _ h')
    by_cases hne : s.url ≠ url ∨ s.auth ≠ auth
    · -- the turn of `s` sends the same calls from both stores, and is kept
      obtain ⟨cs, hcs, e₁, e₂⟩ := reconcileSource_same otherPlaces_closed
        (fun c hc => ⟨s, hs, hne, c, hc, rfl⟩) h
      have hkeep : (s.url != url || s.auth != auth) = true := by simpa using hne
      simp only [reconcileTurns, hf.reconcileSource_eq hne, e₁, e₂, sendAll_log, List.drop_left,
        List.filter_cons, hkeep, if_true]
      exact congrArg _ (reconcileTurns_isolated hu hf ss hss' (h.sendAll otherPlaces_closed cs hcs))
    · -- the turn of `s` writes none of those places, and is dropped
      have hdrop : (s.url != url || s.auth != auth) = false := by simpa using hne
      obtain ⟨cs₁, hcs₁, e₁⟩ : Sends (AuthorizedBy config snap₁ host now s) w₁ _ :=
        sends_reconcileSource s w₁
      obtain ⟨cs₂, hcs₂, e₂⟩ : Sends (AuthorizedBy config snap₂ host now s) w₂ _ :=
        sends_reconcileSource s w₂
      simp only [reconcileTurns, List.filter_cons, hdrop]
      refine reconcileTurns_isolated hu hf ss hss' ?_
      rw [e₁, e₂]
      exact ((h.sendAll_left cs₁ fun c hc => otherPlaces_not_covers_of_same hu hs hne (hcs₁ c hc)).symm.sendAll_left
        cs₂ fun c hc => otherPlaces_not_covers_of_same hu hs hne (hf.authorizedBy (hcs₂ c hc))).symm

/-- Two runs of a cycle from the same world, the second seeing some fetches with URL `url` and
header `auth` raise. Each run logs its cleanup pass and then the calls of each turn of its source
loop; every turn of a source rule with another URL or header sends the same calls, in the same
order, in both runs. -/
theorem cycle_failure_isolated (hu : Unshared config snap₁) (hf : snap₁.FailsAt snap₂ url auth)
    (w : World) :
    (cycle config snap₁ host now w).log = (cleanupBasyxResources config snap₁ host now w).log ++
        ((cycleTurns config snap₁ host now w).map Prod.snd).flatten ∧
      (cycle config snap₂ host now w).log = (cleanupBasyxResources config snap₂ host now w).log ++
        ((cycleTurns config snap₂ host now w).map Prod.snd).flatten ∧
      (cycleTurns config snap₁ host now w).filter (fun e => e.1.url != url || e.1.auth != auth) =
        (cycleTurns config snap₂ host now w).filter (fun e => e.1.url != url || e.1.auth != auth) := by
  refine ⟨cycle_log_turns snap₁ w, cycle_log_turns snap₂ w, ?_⟩
  unfold cycleTurns
  split_ifs
  · -- neither cleanup pass deletes one of the other places
    refine reconcileTurns_isolated hu hf _ (fun _ h => h) ?_
    rw [cleanup_eq_sendAll, cleanup_eq_sendAll]
    refine (((Store.AgreeOn.refl w.store).sendAll_left _ fun d hd => ?_).symm.sendAll_left _
      fun d hd => ?_).symm
    · exact otherPlaces_not_covers_of_retired hu (cleanupCalls_retired d hd)
    · exact otherPlaces_not_covers_of_retired hu (hf.retired (cleanupCalls_retired d hd))
  · rfl

end Turns

/-! ## A failing source cancels the deletions of the others -/

/-- Source rule `u1`: every property of feature `f` of thing `t`, with a downtime window in the
year 2000. -/
def splitRuleOne : SourceRule :=
  { source_url := some "u1", things := some [
      { thing_id := some "t", downtime := some ⟨some "2000-01-01T00:00:00", some "2000-01-01T00:00:00"⟩,
        features := some [{ feature_id := some "f", properties := some ["*"] }] }] }

/-- The source rules `splitRuleOne`, then `wildcardRule` (source `u`). -/
def splitPolicy : Config := { sources := some [splitRuleOne, wildcardRule], basyx_url := some "b" }

/-- Source `u1` lists thing `t`, with feature `f` (`p` is `"one"`) and feature `h` without
properties; source `u` lists thing `x`, with feature `g` (`p` is `"two"`). With `failing`, every
fetch from `u` without a header raises. -/
def splitSnapshot (failing : Bool) : Snapshot :=
  ⟨fun u a => if failing ∧ u = "u" ∧ a = "" then none
      else if u = "u" then some [⟨some "x"⟩] else some [⟨some "t"⟩],
    fun u a _ => if failing ∧ u = "u" ∧ a = "" then none
      else if u = "u" then some ⟨[("g", ⟨some ⟨[("p", .str "two")], by simp⟩⟩)], by simp⟩
      else some ⟨[("f", ⟨some ⟨[("p", .str "one")], by simp⟩⟩), ("h", ⟨none⟩)], by simp⟩⟩

/-- `splitSnapshot true` answers as `splitSnapshot false`, except that the fetches of `u`
without a header raise. -/
theorem splitSnapshot_failsAt : (splitSnapshot false).FailsAt (splitSnapshot true) "u" "" where
  things u a := by
    by_cases h : u = "u" ∧ a = ""
    · exact .inr ⟨h.1, h.2, by simp [splitSnapshot, h]⟩
    · exact .inl (by simp [splitSnapshot, h])
  features u a _ := by
    by_cases h : u = "u" ∧ a = ""
    · exact .inr ⟨h.1, h.2, by simp [splitSnapshot, h]⟩
    · exact .inl (by simp [splitSnapshot, h])

/-- The things that `splitSnapshot false` reports to the rules of `splitPolicy`. -/
theorem splitSnapshot_reportsThing {s : SourceRule} {th : Thing} (hs : s ∈ splitPolicy.sourceRules)
    (h : (splitSnapshot false).ReportsThing s th) :
    s = splitRuleOne ∧ th = ⟨some "t"⟩ ∨ s = wildcardRule ∧ th = ⟨some "x"⟩ := by
  obtain ⟨ths, hths, hth⟩ := h
  simp only [splitPolicy, Config.sourceRules, Option.getD_some, List.mem_cons, List.mem_singleton,
    List.not_mem_nil, or_false] at hs
  rcases hs with rfl | rfl
  · have e : (splitSnapshot false).things splitRuleOne.url splitRuleOne.auth = some [⟨some "t"⟩] := by decide
    rw [e, Option.some.injEq] at hths
    subst hths
    exact .inl ⟨rfl, List.mem_singleton.mp hth⟩
  · have e : (splitSnapshot false).things wildcardRule.url wildcardRule.auth = some [⟨some "x"⟩] := by decide
    rw [e, Option.some.injEq] at hths
    subst hths
    exact .inr ⟨rfl, List.mem_singleton.mp hth⟩

/-- The features that `splitSnapshot false` reports to the rules of `splitPolicy`. -/
theorem splitSnapshot_reports {s : SourceRule} {th : Thing} {fid : String} {d : Feature}
    (hs : s ∈ splitPolicy.sourceRules) (h : (splitSnapshot false).Reports s th fid d) :
    th.thingId = some "t" ∧ (fid = "f" ∨ fid = "h") ∨ th.thingId = some "x" ∧ fid = "g" := by
  obtain ⟨hth, feats, hF, he⟩ := h
  rcases splitSnapshot_reportsThing hs hth with ⟨rfl, rfl⟩ | ⟨rfl, rfl⟩
  · simp [splitSnapshot, splitRuleOne, SourceRule.url, SourceRule.auth] at hF
    subst hF
    simp at he
    exact .inl ⟨rfl, by tauto⟩
  · simp [splitSnapshot, wildcardRule, SourceRule.url, SourceRule.auth] at hF
    subst hF
    simp at he
    exact .inr ⟨rfl, he.1⟩

/-- On `splitPolicy`, every place of `splitSnapshot false` is reached from one pair. -/
theorem splitSnapshot_unshared : Unshared splitPolicy (splitSnapshot false) where
  thing s₁ hs₁ s₂ hs₂ th₁ th₂ t h₁ h₂ ht₁ ht₂ := by
    rcases splitSnapshot_reportsThing hs₁ h₁ with ⟨rfl, rfl⟩ | ⟨rfl, rfl⟩ <;>
      rcases splitSnapshot_reportsThing hs₂ h₂ with ⟨rfl, rfl⟩ | ⟨rfl, rfl⟩
    all_goals first
      | exact ⟨rfl, rfl⟩
      | exact absurd (ht₁.trans ht₂.symm) (by decide)
  submodel s₁ hs₁ s₂ hs₂ th₁ th₂ t₁ t₂ f₁ f₂ d₁ d₂ h₁ h₂ ht₁ ht₂ hk := by
    rcases splitSnapshot_reports hs₁ h₁ with ⟨e₁, hf₁⟩ | ⟨e₁, hf₁⟩ <;>
      rcases splitSnapshot_reports hs₂ h₂ with ⟨e₂, hf₂⟩ | ⟨e₂, hf₂⟩ <;>
      rw [e₁, Option.some.injEq] at ht₁ <;> rw [e₂, Option.some.injEq] at ht₂ <;> subst ht₁ ht₂ <;>
      rcases hf₁ with rfl | rfl <;> rcases hf₂ with rfl | rfl <;> revert hk <;> decide

/-- With both sources reporting, every place comes from one (thing, feature) pair, and the turn of
`u1` sends the same calls in both runs. -/
theorem cycle_failure_isolated_split :
    Unshared splitPolicy (splitSnapshot false) ∧
      (splitSnapshot false).FailsAt (splitSnapshot true) "u" "" ∧
      (cycle splitPolicy (splitSnapshot false) host2000 0 ⟨.empty, []⟩).log =
          (cleanupBasyxResources splitPolicy (splitSnapshot false) host2000 0 ⟨.empty, []⟩).log ++
            ((cycleTurns splitPolicy (splitSnapshot false) host2000 0 ⟨.empty, []⟩).map
              Prod.snd).flatten ∧
        (cycle splitPolicy (splitSnapshot true) host2000 0 ⟨.empty, []⟩).log =
          (cleanupBasyxResources splitPolicy (splitSnapshot true) host2000 0 ⟨.empty, []⟩).log ++
            ((cycleTurns splitPolicy (splitSnapshot true) host2000 0 ⟨.empty, []⟩).map
              Prod.snd).flatten ∧
        (cycleTurns splitPolicy (splitSnapshot false) host2000 0 ⟨.empty, []⟩).filter
            (fun e => e.1.url != "u" || e.1.auth != "") =
          (cycleTurns splitPolicy (splitSnapshot true) host2000 0 ⟨.empty, []⟩).filter
            (fun e => e.1.url != "u" || e.1.auth != "") :=
  ⟨splitSnapshot_unshared, splitSnapshot_failsAt,
    cycle_failure_isolated splitSnapshot_unshared splitSnapshot_failsAt _⟩

section Raise

variable {config : Config} {snap : Snapshot} {host : Host} {now : Nat} {s : SourceRule}

/-- A thing whose removals raise makes the thing loop of its source rule raise. -/
theorem thingsRemovals_eq_none {th : Thing}
    (h : thingRemovals config snap host now s th = none) :
    ∀ {ths : List Thing}, th ∈ ths → thingsRemovals config snap host now s ths = none
  | th' :: ths, hm => by
    rcases List.mem_cons.mp hm with rfl | hm
    · simp [thingsRemovals, h]
    · simp [thingsRemovals, thingsRemovals_eq_none h hm]

/-- A source rule whose things raise makes the source loop of the first phase raise. -/
theorem sourcesRemovals_eq_none
    (h : (snap.things s.url s.auth).bind (thingsRemovals config snap host now s) = none) :
    ∀ {ss : List SourceRule}, s ∈ ss → sourcesRemovals config snap host now ss = none
  | s' :: ss, hm => by
    rcases List.mem_cons.mp hm with rfl | hm
    · cases hT : snap.things s.url s.auth <;> simp_all [sourcesRemovals]
    · simp [sourcesRemovals, sourcesRemovals_eq_none h hm]

/-- One fetch that raises cancels the whole cleanup pass: when the listing of a source rule of the
policy raises, or the features of a thing it lists with a non-empty id do, the first phase raises
inside the one `try`, and no delete is sent, for that source rule or any other. -/
theorem cleanupCalls_nil_of_raise (hs : s ∈ config.sourceRules)
    (hraise : snap.things s.url s.auth = none ∨
      ∃ th ∈ (snap.things s.url s.auth).getD [], ∃ t, th.thingId = some t ∧ t ≠ "" ∧
        snap.features s.url s.auth t = none) :
    cleanupCalls config snap host now = [] := by
  suffices removals config snap host now = none by simp [cleanupCalls, this]
  refine sourcesRemovals_eq_none ?_ hs
  rcases hraise with hT | ⟨th, hth, t, ht, hne, hF⟩
  · rw [hT, Option.none_bind]
  · cases hT : snap.things s.url s.auth with
    | none => rfl
    | some ths =>
      rw [hT, Option.getD_some] at hth
      exact thingsRemovals_eq_none (by simp [thingRemovals, ht, hne, hF]) hth

end Raise

/-- From a BaSyx that holds submodel `t:h`, the first run deletes it for source rule `u1`, whose
fetches answer the same in both runs; in the second run the listing of `u` raises inside the one
`try` of the cleanup pass, which then deletes nothing. -/
theorem cycle_failure_cancels_cleanup :
    (splitSnapshot false).FailsAt (splitSnapshot true) "u" "" ∧ splitRuleOne.url ≠ "u" ∧
      wildcardRule ∈ splitPolicy.sourceRules ∧
      (splitSnapshot true).things wildcardRule.url wildcardRule.auth = none ∧
      cleanupCalls splitPolicy (splitSnapshot false) host2000 0 =
        [.deleteSubmodel (encodeId (submodelId "t" "h"))] ∧
      cleanupCalls splitPolicy (splitSnapshot true) host2000 0 = [] ∧
      (cycle splitPolicy (splitSnapshot false) host2000 0
        (sendAll [.createSubmodel (submodelId "t" "h")] ⟨.empty, []⟩)).store.has
          (.submodel (encodeId (submodelId "t" "h"))) = false ∧
      (cycle splitPolicy (splitSnapshot true) host2000 0
        (sendAll [.createSubmodel (submodelId "t" "h")] ⟨.empty, []⟩)).store.has
          (.submodel (encodeId (submodelId "t" "h"))) = true :=
  have hs : wildcardRule ∈ splitPolicy.sourceRules :=
    List.mem_cons_of_mem _ (List.mem_singleton_self _)
  have hT : (splitSnapshot true).things wildcardRule.url wildcardRule.auth = none := by decide
  ⟨splitSnapshot_failsAt, by decide, hs, hT, by decide, cleanupCalls_nil_of_raise hs (.inl hT),
    by decide, by decide⟩

end TwinExporter
