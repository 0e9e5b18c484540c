import TwinExporter.Mirror

/-!
# A created submodel is linked to its shell

`create_basyx_submodel` posts the submodel, then a reference to it in the shell of its thing. The
reconciliation pass calls it only for a missing submodel, after the shell of the thing was made
sure of, and it never deletes; so every submodel that a pass creates is present at its end and
referenced from its thing's shell (`cycle_links_created`).

A submodel that the pass only finds is not checked: `get_basyx_submodel` decides that nothing is
to be done. When its shell was deleted by an earlier cycle and is created again, the submodel keeps
being written and is referenced from no shell (`cycles_unlink_submodel`, three cycles from an empty
BaSyx).

The proof carries `Linked n`, "every submodel created past position `n` of the log is present and
referenced", through the pass. `Keeps I Q x` says that the world after `x` satisfies `I` and a
world that `x` returns satisfies `Q`; its bind rule lets each function of `Reconcile.lean` have one
lemma, with the shell of the thing as the postcondition that the feature loop carries.
-/

namespace TwinExporter

/-! ## What a call that does not delete keeps -/

/-- `σ'` keeps every submodel of `σ`, and every shell of `σ` with the references it holds. -/
def Store.Grows (σ σ' : Store) : Prop :=
  (∀ k, (σ.submodels k).isSome → (σ'.submodels k).isSome) ∧
    ∀ k sh, σ.shells k = some sh → ∃ sh', σ'.shells k = some sh' ∧ sh.submodelRefs ⊆ sh'.submodelRefs

/-- A store grows to itself. -/
theorem Store.Grows.refl (σ : Store) : σ.Grows σ :=
  ⟨fun _ h => h, fun _ sh h => ⟨sh, h, List.Subset.refl _⟩⟩

/-- Growing is transitive. -/
theorem Store.Grows.trans {σ₁ σ₂ σ₃ : Store} (h₁ : σ₁.Grows σ₂) (h₂ : σ₂.Grows σ₃) :
    σ₁.Grows σ₃ := by
  refine ⟨fun k h => h₂.1 k (h₁.1 k h), fun k sh h => ?_⟩
  obtain ⟨sh₂, h₂', hs₂⟩ := h₁.2 k sh h
  obtain ⟨sh₃, h₃, hs₃⟩ := h₂.2 k sh₂ h₂'
  exact ⟨sh₃, h₃, hs₂.trans hs₃⟩

/-- Setting a submodel keeps what is there. -/
theorem grows_setSubmodel (σ : Store) (k : String) (sm : Submodel) :
    σ.Grows (σ.setSubmodel k (some sm)) := by
  refine ⟨fun k' h => ?_, fun k sh h => ⟨sh, h, List.Subset.refl _⟩⟩
  rw [setSubmodel_submodels]
  split <;> simp_all

/-- A call that does not delete keeps every submodel, every shell and every reference. -/
theorem grows_apply (σ : Store) {c : Call} (hc : ¬ c.IsDelete) : σ.Grows (σ.apply c).2 := by
  cases c with
  | createShell id =>
    simp only [Store.apply]
    split
    · exact .refl σ
    · refine ⟨fun k h => h, fun k sh h => ⟨sh, ?_, List.Subset.refl _⟩⟩
      rw [setShell_shells, if_neg]
      · exact h
      · rintro rfl; simp_all
  | postSubmodelRef k id =>
    simp only [Store.apply]
    split
    · exact .refl σ
    · rename_i sh hsh
      refine ⟨fun k h => h, fun k' sh' h => ?_⟩
      by_cases hk : k' = k
      · subst hk
        rw [hsh] at h
        cases h
        exact ⟨⟨sh.submodelRefs ++ [id]⟩, by simp, List.subset_append_left _ _⟩
      · exact ⟨sh', by simp [hk, h], List.Subset.refl _⟩
  | createSubmodel _ | createElement _ _ _ | updateElement _ _ _ =>
    simp only [Store.apply]
    repeat' split
    all_goals first | exact .refl σ | exact grows_setSubmodel _ _ _
  | deleteShell _ | deleteSubmodel _ | deleteElement _ _ => exact absurd trivial hc

/-- Sending calls that do not delete keeps what is there. -/
theorem grows_sendAll : ∀ (cs : List Call) (w : World), (∀ c ∈ cs, ¬ c.IsDelete) →
    w.store.Grows (sendAll cs w).store
  | [], w, _ => .refl w.store
  | c :: cs, w, h =>
    (grows_apply w.store (h c (List.mem_cons_self _ _))).trans
      (grows_sendAll cs (w.send c).2 fun c' h' => h c' (List.mem_cons_of_mem _ h'))

/-! ## Pre- and postconditions of a piece -/

/-- The world after `x` satisfies `I`, whether `x` returned or raised, and a world that `x` returns
satisfies `Q`. -/
def Keeps (I Q : World → Prop) (x : Except World World) : Prop :=
  I (caught x) ∧ ∀ w, x = .ok w → Q w

section Keeps

variable {I Q R : World → Prop} {w : World}

/-- A piece that returns `w` keeps what `w` satisfies. -/
theorem keeps_ok (hQ : Q w) (hI : I w) : Keeps I Q (.ok w) := ⟨hI, fun _ h => by cases h; exact hQ⟩

/-- A piece that raises with `w` keeps what `w` satisfies. -/
theorem keeps_error (hI : I w) : Keeps I Q (.error w) := ⟨hI, fun _ h => by cases h⟩

/-- A bind keeps `I` when its first part does, and its second part does from every world that the
first returns. -/
theorem Keeps.bind {x : Except World World} {g : World → Except World World} (hx : Keeps I Q x)
    (hg : ∀ w, Q w → Keeps I R (g w)) : Keeps I R (x.bind g) := by
  cases x with
  | error w' => exact ⟨hx.1, fun _ h => by cases h⟩
  | ok w' => exact hg w' (hx.2 w' rfl)

end Keeps

/-! ## The invariant -/

/-- A call that neither deletes nor creates a submodel. -/
def Call.Keeping : Call → Prop
  | .createSubmodel _ | .deleteShell _ | .deleteSubmodel _ | .deleteElement _ _ => False
  | _ => True

/-- A call that keeps every submodel does not delete. -/
theorem Call.Keeping.not_delete {c : Call} (h : c.Keeping) : ¬ c.IsDelete := by
  cases c <;> simp_all [Call.Keeping, Call.IsDelete]

/-- The log holds at least `n` calls, and every submodel that a call past position `n` created is
present and referenced from the shell of its thing. -/
def Linked (n : Nat) (w : World) : Prop :=
  n ≤ w.log.length ∧ ∀ id, .createSubmodel id ∈ w.log.drop n →
    (w.store.submodels (encodeId id)).isSome ∧ ∃ t fid, id = submodelId t fid ∧
      ∃ sh, w.store.shells (encodeId t) = some sh ∧ id ∈ sh.submodelRefs

/-- The shell of thing `t` is present. -/
def HasShell (t : String) (w : World) : Prop := (w.store.shells (encodeId t)).isSome

/-- Calls that neither delete nor create a submodel keep `Linked`. -/
theorem linked_sendAll {n : Nat} {w : World} {cs : List Call} (hc : ∀ c ∈ cs, c.Keeping)
    (hL : Linked n w) : Linked n (sendAll cs w) := by
  have hg := grows_sendAll cs w fun c h => (hc c h).not_delete
  refine ⟨by simp only [sendAll_log, List.length_append]; have := hL.1; omega, fun id hid => ?_⟩
  rw [sendAll_log, List.drop_append_of_le_length hL.1] at hid
  rcases List.mem_append.mp hid with hid | hid
  · obtain ⟨hsub, t', fid, rfl, sh₁, h₁, hmem⟩ := hL.2 _ hid
    obtain ⟨sh₂, h₂, hsub'⟩ := hg.2 _ sh₁ h₁
    exact ⟨hg.1 _ hsub, t', fid, rfl, sh₂, h₂, hsub' hmem⟩
  · exact False.elim (hc _ hid)

/-- A shell stays while the store grows. -/
theorem HasShell.of_grows {t : String} {w w' : World} (hs : HasShell t w)
    (hg : w.store.Grows w'.store) : HasShell t w' := by
  obtain ⟨sh, hsh⟩ := Option.isSome_iff_exists.mp hs
  obtain ⟨sh', hsh', -⟩ := hg.2 _ sh hsh
  simp [HasShell, hsh']

/-- A call that BaSyx accepts returns the world after it. -/
theorem post_eq_ok {w : World} {c : Call} (h : (w.store.apply c).1 = true) :
    w.post c = .ok (w.send c).2 := by
  simp [World.post, World.send, h]

/-! ## The pass keeps it -/

section Pass

variable {config : Config} {snap : Snapshot} {host : Host} {now : Nat} {n : Nat} {t : String}
  {w : World}

/-- A piece that neither deletes nor creates a submodel keeps `Linked` and the shell of `t`. -/
theorem keeps_of_sends {x : Except World World} (hx : Sends Call.Keeping w (caught x))
    (hL : Linked n w) (hs : HasShell t w) :
    Keeps (Linked n) (fun w => Linked n w ∧ HasShell t w) x := by
  obtain ⟨cs, hc, he⟩ := hx
  have hL' : Linked n (caught x) := he ▸ linked_sendAll hc hL
  have hs' : HasShell t (caught x) :=
    hs.of_grows (he ▸ grows_sendAll cs w fun c h => (hc c h).not_delete)
  exact ⟨hL', fun w' hw => by subst hw; exact ⟨hL', hs'⟩⟩

/-- The upsert loop writes elements only. -/
theorem sends_upsertElements_keeping (submodel_id : String) :
    ∀ (props : List (String × JsonValue)) (w : World),
      Sends Call.Keeping w (caught (upsertElements host submodel_id props w))
  | [], _ => Sends.refl
  | (p, v) :: props, w => by
    refine sends_bind ?_ fun w' _ => sends_upsertElements_keeping submodel_id props w'
    unfold updateBasyxElement
    split <;> exact sends_post trivial

/-- `get_basyx_shell`, then `create_basyx_shell` on a missing shell, returns with the shell. -/
theorem keeps_ensureShell (hL : Linked n w) :
    Keeps (Linked n) (fun w => Linked n w ∧ HasShell t w) (ensureShell (some t) w) := by
  simp only [ensureShell]
  split
  · rename_i hs
    exact keeps_ok ⟨hL, hs⟩ hL
  · rename_i hs
    have hL' : Linked n (sendAll [.createShell t] w) := linked_sendAll (by simp [Call.Keeping]) hL
    rw [post_eq_ok (by simp [Store.apply, hs])]
    exact keeps_ok ⟨hL', by simp [HasShell, Store.apply, hs]⟩ hL'

/-- With the shell of `t` present, `get_basyx_submodel`, then `create_basyx_submodel` on a missing
submodel, returns with the submodel linked to the shell. -/
theorem keeps_ensureSubmodel (fid : String) (hL : Linked n w) (hs : HasShell t w) :
    Keeps (Linked n) (fun w => Linked n w ∧ HasShell t w)
      (ensureSubmodel (some t) (submodelId t fid) w) := by
  unfold ensureSubmodel
  split
  · exact keeps_ok ⟨hL, hs⟩ hL
  · rename_i hsub
    obtain ⟨sh, hsh⟩ := Option.isSome_iff_exists.mp hs
    -- both posts succeed: the submodel is missing and the shell is there
    have h₁ : w.post (.createSubmodel (submodelId t fid)) = .ok (w.send (.createSubmodel (submodelId t fid))).2 :=
      post_eq_ok (by simp [Store.apply, hsub])
    have h₂ := post_eq_ok (w := (w.send (.createSubmodel (submodelId t fid))).2)
      (c := .postSubmodelRef (encodeId t) (submodelId t fid)) (by simp [Store.apply, hsh, hsub])
    simp only [createBasyxSubmodel, h₁, Except.bind, h₂]
    set w₂ := sendAll [.createSubmodel (submodelId t fid), .postSubmodelRef (encodeId t) (submodelId t fid)] w
      with hw₂
    have hg : w.store.Grows w₂.store := grows_sendAll _ w (by simp [Call.IsDelete])
    have hlog : w₂.log = w.log ++ [.createSubmodel (submodelId t fid),
        .postSubmodelRef (encodeId t) (submodelId t fid)] := sendAll_log _ _
    have hshell : w₂.store.shells (encodeId t) = some ⟨sh.submodelRefs ++ [submodelId t fid]⟩ := by
      simp [hw₂, Store.apply, hsh, hsub]
    have hL₂ : Linked n w₂ := by
      refine ⟨by rw [hlog, List.length_append]; have := hL.1; omega, fun id hid => ?_⟩
      rw [hlog, List.drop_append_of_le_length hL.1] at hid
      rcases List.mem_append.mp hid with hid | hid
      · obtain ⟨hsub', t', fid', rfl, sh₁, h₁, hmem⟩ := hL.2 _ hid
        obtain ⟨sh₂, h₂, hsub''⟩ := hg.2 _ sh₁ h₁
        exact ⟨hg.1 _ hsub', t', fid', rfl, sh₂, h₂, hsub'' hmem⟩
      · simp only [List.mem_cons, Call.createSubmodel.injEq, reduceCtorEq, List.mem_nil_iff,
          or_false] at hid
        subst hid
        exact ⟨by simp [hw₂, Store.apply, hsub, hsh], t, fid, rfl, _, hshell, by simp⟩
    show Keeps _ _ (.ok w₂)
    exact keeps_ok ⟨hL₂, by simp [HasShell, hshell]⟩ hL₂

/-- An exported feature keeps `Linked` and returns with the shell of its thing, given the shell
when an earlier feature made sure of it. -/
theorem keeps_exportFeature {h : Bool} {fid : String} {d : Feature} {sel : List String}
    (hL : Linked n w) (hh : h = true → HasShell t w) :
    Keeps (Linked n) (fun w => Linked n w ∧ HasShell t w)
      (exportFeature config host (some t) h fid d sel w) := by
  unfold exportFeature
  dsimp only
  refine Keeps.bind (Q := fun w => Linked n w ∧ HasShell t w)
    (Keeps.bind (Q := fun w => Linked n w ∧ HasShell t w) ?_ fun w₁ h₁ =>
      keeps_ensureSubmodel fid h₁.1 h₁.2) fun w₂ h₂ => ?_
  · cases h
    · exact keeps_ensureShell hL
    · exact keeps_ok ⟨hL, hh rfl⟩ hL
  · split
    · exact keeps_ok h₂ h₂.1
    · exact keeps_of_sends (sends_upsertElements_keeping _ _ _) h₂.1 h₂.2

/-- The feature loop of a thing with an id keeps `Linked`. -/
theorem linked_reconcileFeatures (url : String) :
    ∀ (h : Bool) (feats : List (String × Feature)) (w : World), Linked n w →
      (h = true → HasShell t w) → Linked n (caught (reconcileFeatures config host now url (some t) h feats w))
  | _, [], _, hL, _ => hL
  | h, (fid, d) :: feats, w, hL, hh => by
    have hstep : Keeps (Linked n) (fun w' => Linked n w' ∧
        ((h || (resolve config host now url (some t) fid).isFound) = true → HasShell t w'))
        (reconcileFeature config host now url (some t) h fid d w) := by
      unfold reconcileFeature
      split
      · exact keeps_error hL
      · rename_i hr
        exact keeps_ok ⟨hL, by simpa [hr, Resolution.isFound] using hh⟩ hL
      · rename_i sel _
        obtain ⟨hL', hQ⟩ : Keeps _ _ (exportFeature config host (some t) h fid d sel w) :=
          keeps_exportFeature hL hh
        exact ⟨hL', fun w' hw => ⟨(hQ w' hw).1, fun _ => (hQ w' hw).2⟩⟩
    exact (hstep.bind fun w' hw' =>
      (⟨linked_reconcileFeatures url _ feats w' hw'.1 hw'.2, fun _ _ => trivial⟩ :
        Keeps (Linked n) (fun _ => True) _)).1

/-- A piece that keeps `I` in the world it leaves keeps it in the worlds it returns. -/
theorem keeps_of_caught {I : World → Prop} {x : Except World World} (h : I (caught x)) :
    Keeps I I x :=
  ⟨h, fun w hw => by subst hw; exact h⟩

/-- The thing loop of a source rule keeps `Linked`. -/
theorem linked_reconcileThings (s : SourceRule) :
    ∀ (ths : List Thing) (w : World), Linked n w →
      Linked n (caught (reconcileThings config snap host now s ths w))
  | [], _, hL => hL
  | th :: ths, w, hL => by
    have hth : Linked n (caught (reconcileThing config snap host now s th w)) := by
      unfold reconcileThing
      split
      · exact hL
      · cases th.thingId with
        | none => rw [reconcileFeatures_none]; exact hL
        | some t => exact linked_reconcileFeatures _ false _ w hL (fun h => absurd h Bool.false_ne_true)
    exact ((keeps_of_caught hth).bind fun w' hw' =>
      keeps_of_caught (linked_reconcileThings s ths w' hw')).1

/-- The reconciliation pass keeps `Linked`. -/
theorem linked_reconcile (hL : Linked n w) : Linked n (reconcile config snap host now w) := by
  unfold reconcile
  split
  · exact hL
  · generalize config.sourceRules = ss
    induction ss generalizing w with
    | nil => exact hL
    | cons s ss ih =>
      refine ih ?_
      show Linked n (reconcileSource config snap host now s w)
      unfold reconcileSource
      split
      · exact hL
      · exact linked_reconcileThings s _ w hL

end Pass

/-- Every submodel that the reconciliation pass of a cycle creates is present after the cycle and
referenced from the shell of its thing, whatever BaSyx held before. -/
theorem cycle_links_created (config : Config) (snap : Snapshot) (host : Host) (now : Nat)
    (w : World) :
    ∀ id, .createSubmodel id ∈ (cycle config snap host now w).log.drop
        (cleanupBasyxResources config snap host now w).log.length →
      ((cycle config snap host now w).store.submodels (encodeId id)).isSome ∧
        ∃ t fid, id = submodelId t fid ∧
          ∃ sh, (cycle config snap host now w).store.shells (encodeId t) = some sh ∧
            id ∈ sh.submodelRefs :=
  (linked_reconcile ⟨le_refl _, fun _ h => by simp at h⟩).2

/-- The first cycle on `valueSnapshot` from an empty BaSyx creates `t:f`, and links it. -/
theorem cycle_links_created_mirror :
    Call.createSubmodel "t:f" ∈
        (cycle mirrorPolicy (valueSnapshot (.int 1)) host2000 0 ⟨.empty, []⟩).log.drop
          (cleanupBasyxResources mirrorPolicy (valueSnapshot (.int 1)) host2000 0 ⟨.empty, []⟩).log.length ∧
      ((cycle mirrorPolicy (valueSnapshot (.int 1)) host2000 0 ⟨.empty, []⟩).store.submodels
          (encodeId "t:f")).isSome ∧
        ∃ t fid, "t:f" = submodelId t fid ∧
          ∃ sh, (cycle mirrorPolicy (valueSnapshot (.int 1)) host2000 0 ⟨.empty, []⟩).store.shells
              (encodeId t) = some sh ∧ "t:f" ∈ sh.submodelRefs :=
  ⟨by decide, cycle_links_created _ _ _ _ _ "t:f" (by decide)⟩

/-- Source `u` reports thing `t` without features. -/
def bareSnapshot : Snapshot := ⟨fun _ _ => some [⟨some "t"⟩], fun _ _ _ => some .empty⟩

/-- Three cycles from an empty BaSyx: `t:f` is created and linked; `t` then reports no feature, so
the cleanup pass deletes its shell but not the submodel; when `f` comes back, the shell is created
again without a reference, and property `p` is written into the unreferenced `t:f`. -/
theorem cycles_unlink_submodel :
    let w₂ := cycle mirrorPolicy bareSnapshot host2000 0
      (cycle mirrorPolicy (valueSnapshot (.int 1)) host2000 0 ⟨.empty, []⟩)
    Call.updateElement (encodeId "t:f") "p" "\"\"" ∈
        (cycle mirrorPolicy (valueSnapshot (.int 1)) host2000 0 w₂).log.drop
          (cleanupBasyxResources mirrorPolicy (valueSnapshot (.int 1)) host2000 0 w₂).log.length ∧
      (cycle mirrorPolicy (valueSnapshot (.int 1)) host2000 0 w₂).store.shells (encodeId "t") =
        some ⟨[]⟩ := by
  decide

end TwinExporter
