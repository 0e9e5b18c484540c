import TwinExporter.Registry

/-!
# The cleanup pass

`cleanup_basyx_resources` of `exporter.py`. It runs in two phases inside one `try`. The first walks
every source rule, every thing with a non-empty `thingId`, and its features, and queues what the
policy no longer justifies: the shell and every submodel of a thing none of whose features is
exported, the submodel of each feature that is not exported, and the elements of an exported
feature's properties outside its list. The second deletes the queued shells and submodels, then
the queued elements; a delete catches its own errors and answers whether BaSyx said `200`.

The first phase reads only the policy, the clock and the source registries, so it is a function
(`removals`) that returns the two queues, or `none` when a fetch or the resolver raises; then the
`except` skips the deletions altogether. `cleanup_eq_sendAll` says the pass is "send
`cleanupCalls`, in order".
-/

namespace TwinExporter

/-- An entry of `items_to_remove`. -/
inductive Item where
  /-- `('shell', thing_id)`. -/
  | shell (thing_id : String)
  /-- `('submodel', submodel_id)`. -/
  | submodel (submodel_id : String)
  deriving DecidableEq, Repr

/-- The two queues: `items_to_remove` and `elements_to_remove`. -/
structure Removals where
  /-- `items_to_remove`. -/
  items : List Item
  /-- `elements_to_remove`, as `(submodel_id, element_id)`. -/
  elements : List (String × String)
  deriving DecidableEq, Repr

/-- Queues extended with the entries of later things. -/
instance : Append Removals := ⟨fun a b => ⟨a.items ++ b.items, a.elements ++ b.elements⟩⟩

/-- The items queued by two parts, in order. -/
@[simp] theorem Removals.items_append (a b : Removals) : (a ++ b).items = a.items ++ b.items := rfl

/-- The elements queued by two parts, in order. -/
@[simp] theorem Removals.elements_append (a b : Removals) :
    (a ++ b).elements = a.elements ++ b.elements := rfl

/-- `f"{thing_id}:{feature_id}"`. -/
def submodelId (thing_id feature_id : String) : String := thing_id ++ ":" ++ feature_id

/-- The delete call of a queued item: `delete_basyx_shell` or `delete_basyx_submodel`. -/
def Item.call : Item → Call
  | .shell t => .deleteShell (encodeId t)
  | .submodel id => .deleteSubmodel (encodeId id)

/-- The delete call of a queued element: `delete_basyx_element`. -/
def elementCall (e : String × String) : Call := .deleteElement (encodeId e.1) e.2

/-- The calls of the deletion phase: the items, then the elements. -/
def Removals.calls (q : Removals) : List Call := q.items.map Item.call ++ q.elements.map elementCall

/-- Send calls one after the other, ignoring their answers. -/
def sendAll (cs : List Call) (w : World) : World := cs.foldl (fun w c => (w.send c).2) w

/-- Sending no call leaves the world. -/
@[simp] theorem sendAll_nil (w : World) : sendAll [] w = w := rfl

/-- Sending calls sends the first, then the rest. -/
@[simp] theorem sendAll_cons (c : Call) (cs : List Call) (w : World) :
    sendAll (c :: cs) w = sendAll cs (w.send c).2 := rfl

/-- Sending two lists of calls sends the first, then the second. -/
theorem sendAll_append (cs ds : List Call) (w : World) :
    sendAll (cs ++ ds) w = sendAll ds (sendAll cs w) := List.foldl_append _ _ _ _

/-- Sending calls appends them to the log. -/
@[simp] theorem sendAll_log (cs : List Call) (w : World) : (sendAll cs w).log = w.log ++ cs := by
  induction cs generalizing w with
  | nil => simp
  | cons c cs ih => simp [ih]

section Cleanup

variable (config : Config) (snap : Snapshot) (host : Host) (now : Nat)

/-- `get_export_config` as both passes call it, on one clock value. -/
def resolve (source_url : String) (thing_id : Option String) (feature_id : String) : Resolution :=
  getExportConfig host.fromisoformat now source_url thing_id feature_id config

/-- The loop that sets `thing_has_exports`: it stops at the first exported feature; `none` is a
raise. -/
def thingHasExports (url t : String) : List (String × Feature) → Option Bool
  | [] => some false
  | (fid, _) :: rest =>
    match resolve config host now url (some t) fid with
    | .raised => none
    | .found _ => some true
    | .unconfigured => thingHasExports url t rest

/-- The elements to remove of an exported feature: with a list of properties without `"*"`, each
property of the feature outside the list. -/
def elementsOut (t fid : String) (d : Feature) (sel : List String) : List (String × String) :=
  if "*" ∈ sel then [] else (d.bundle.keys.filter (· ∉ sel)).map (submodelId t fid, ·)

/-- The loop over the features of a thing with exports: the submodel of each feature that is not
exported, and `elementsOut` of each that is. -/
def featureRemovals (url t : String) : List (String × Feature) → Option Removals
  | [] => some ⟨[], []⟩
  | (fid, d) :: rest =>
    match resolve config host now url (some t) fid with
    | .raised => none
    | .unconfigured => (⟨[.submodel (submodelId t fid)], []⟩ ++ ·) <$> featureRemovals url t rest
    | .found sel => (⟨[], elementsOut t fid d sel⟩ ++ ·) <$> featureRemovals url t rest

/-- One thing of a source rule: nothing for a thing without a non-empty `thingId`; otherwise its
features, and the shell with all its submodels when none of them is exported. -/
def thingRemovals (s : SourceRule) (thing : Thing) : Option Removals :=
  match thing.thingId with
  | none => some ⟨[], []⟩
  | some t =>
    if t = "" then some ⟨[], []⟩
    else
      match snap.features s.url s.auth t with
      | none => none
      | some feats =>
        match thingHasExports config host now s.url t feats.entries with
        | none => none
        | some false => some ⟨.shell t :: feats.keys.map (.submodel ∘ submodelId t), []⟩
        | some true => featureRemovals config host now s.url t feats.entries

/-- The loop over the things of a source rule. -/
def thingsRemovals (s : SourceRule) : List Thing → Option Removals
  | [] => some ⟨[], []⟩
  | th :: ths => do
    let a ← thingRemovals config snap host now s th
    let b ← thingsRemovals s ths
    pure (a ++ b)

/-- The loop over the source rules, each fetching its things first. -/
def sourcesRemovals : List SourceRule → Option Removals
  | [] => some ⟨[], []⟩
  | s :: ss => do
    let ths ← snap.things s.url s.auth
    let a ← thingsRemovals config snap host now s ths
    let b ← sourcesRemovals ss
    pure (a ++ b)

/-- The queues at the end of the first phase, or `none` when it raised. -/
def removals : Option Removals := sourcesRemovals config snap host now config.sourceRules

/-- `delete_basyx_shell(thing_id)`. -/
def deleteBasyxShell (thing_id : String) (w : World) : World :=
  (w.send (.deleteShell (encodeId thing_id))).2

/-- `delete_basyx_submodel(submodel_id)`. -/
def deleteBasyxSubmodel (submodel_id : String) (w : World) : World :=
  (w.send (.deleteSubmodel (encodeId submodel_id))).2

/-- `delete_basyx_element(submodel_id, element_id)`. -/
def deleteBasyxElement (submodel_id element_id : String) (w : World) : World :=
  (w.send (.deleteElement (encodeId submodel_id) element_id)).2

/-- The `for item_type, item_id in items_to_remove` loop. -/
def Item.delete : Item → World → World
  | .shell t => deleteBasyxShell t
  | .submodel id => deleteBasyxSubmodel id

/-- `cleanup_basyx_resources(config)`: nothing without a BaSyx URL or when the first phase raised;
otherwise the queued items, then the queued elements, are deleted. -/
def cleanupBasyxResources (w : World) : World :=
  if !config.basyxConfigured then w
  else
    match removals config snap host now with
    | none => w
    | some q =>
      q.elements.foldl (fun w e => deleteBasyxElement e.1 e.2 w)
        (q.items.foldl (fun w i => i.delete w) w)

/-- The calls that the cleanup pass sends. -/
def cleanupCalls : List Call :=
  if config.basyxConfigured then ((removals config snap host now).map Removals.calls).getD [] else []

/-- The cleanup pass sends `cleanupCalls`, in order. -/
theorem cleanup_eq_sendAll (w : World) :
    cleanupBasyxResources config snap host now w = sendAll (cleanupCalls config snap host now) w := by
  unfold cleanupBasyxResources cleanupCalls
  cases config.basyxConfigured
  · rfl
  · cases removals config snap host now with
    | none => rfl
    | some q =>
      have hi : ∀ (is : List Item) w, is.foldl (fun w i => i.delete w) w = sendAll (is.map Item.call) w := by
        intro is
        induction is with
        | nil => intro w; rfl
        | cons i is ih => intro w; cases i <;> exact ih _
      have he : ∀ (es : List (String × String)) w,
          es.foldl (fun w e => deleteBasyxElement e.1 e.2 w) w = sendAll (es.map elementCall) w := by
        intro es
        induction es with
        | nil => intro w; rfl
        | cons e es ih => intro w; exact ih _
      simp [Removals.calls, sendAll_append, hi, he]

/-! ## The deletions against §4.5

`expectedDeletes` is §4.5 as it reads, for every source rule, thing and feature. On a well-timed
policy the resolver does not raise, and when every fetch succeeds the first phase queues exactly
those calls, in another order: the queues put every shell and submodel before every element
(`cleanupCalls_perm`). Without a BaSyx URL the pass deletes nothing.
-/

/-- The `DeleteSubmodel(t:f)` of §4.5: one for each feature `f` of `F` that is not exported. -/
def submodelDeletes (s : SourceRule) (t : String) (F : List (String × Feature)) : List Call :=
  (F.filter fun e => resolve config host now s.url (some t) e.1 = .unconfigured).map
    fun e => .deleteSubmodel (encodeId (submodelId t e.1))

/-- The `DeleteElement(t:f, p)` of §4.5: for each feature `f` of `F` exported with a list without
`"*"`, one for each property of its bundle outside the list. -/
def elementDeletes (s : SourceRule) (t : String) (F : List (String × Feature)) : List Call :=
  F.flatMap fun e =>
    match resolve config host now s.url (some t) e.1 with
    | .found sel =>
      if "*" ∈ sel then [] else
        (e.2.bundle.keys.filter (· ∉ sel)).map (.deleteElement (encodeId (submodelId t e.1)))
    | _ => []

/-- §4.5 for one thing `t` of source rule `s` with features `F`: `DeleteShell(t)` when no feature
is exported, then `submodelDeletes` and `elementDeletes`. -/
def expectedThingDeletes (s : SourceRule) (t : String) (F : List (String × Feature)) : List Call :=
  (if F.all (fun e => resolve config host now s.url (some t) e.1 = .unconfigured) then
    [.deleteShell (encodeId t)] else []) ++
  submodelDeletes config host now s t F ++ elementDeletes config host now s t F

/-- §4.5 for one thing that source rule `s` reports: nothing without a non-empty `thingId`,
otherwise `expectedThingDeletes` on the features that `s` reports for it. -/
def thingDeletes (s : SourceRule) (th : Thing) : List Call :=
  match th.thingId with
  | some t =>
    if t = "" then []
    else expectedThingDeletes config host now s t
      (((snap.features s.url s.auth t).map Dict.entries).getD [])
  | none => []

/-- §4.5 for the whole policy: each source rule in order, and each thing it reports. -/
def expectedDeletes : List Call :=
  config.sourceRules.flatMap fun s =>
    ((snap.things s.url s.auth).getD []).flatMap (thingDeletes config snap host now s)

/-- The calls of two queues, appended, are those of each, up to order. -/
theorem Removals.calls_append_perm (a b : Removals) :
    (a ++ b).calls.Perm (a.calls ++ b.calls) := by
  simpa [Removals.calls] using
    (List.perm_append_comm_assoc (b.items.map Item.call) (a.elements.map elementCall) _).append_left
      (a.items.map Item.call)

variable {config snap host}

/-- On a well-timed policy the resolver does not raise. -/
theorem resolve_ne_raised (hc : config.WellTimed host.fromisoformat) (url : String)
    (thing_id : Option String) (fid : String) : resolve config host now url thing_id fid ≠ .raised :=
  getExportConfig_ne_raised _ _ _ _ _ _ hc

/-- The first loop finds whether some feature is exported. -/
theorem thingHasExports_eq (hc : config.WellTimed host.fromisoformat) (url t : String)
    (F : List (String × Feature)) :
    thingHasExports config host now url t F =
      some !(F.all fun e => resolve config host now url (some t) e.1 = .unconfigured) := by
  induction F with
  | nil => rfl
  | cons e F ih =>
    have hr := resolve_ne_raised now hc url (some t) e.1
    simp only [thingHasExports, List.all_cons]
    split <;> simp_all

/-- The second loop queues the submodels of the features that are not exported and the elements
outside the lists of those that are. -/
theorem featureRemovals_calls (hc : config.WellTimed host.fromisoformat) (s : SourceRule)
    (t : String) (F : List (String × Feature)) :
    ∃ q, featureRemovals config host now s.url t F = some q ∧
      q.items.map Item.call = submodelDeletes config host now s t F ∧
      q.elements.map elementCall = elementDeletes config host now s t F := by
  induction F with
  | nil => exact ⟨⟨[], []⟩, rfl, rfl, rfl⟩
  | cons e F ih =>
    obtain ⟨q, hq, hi, he⟩ := ih
    obtain ⟨fid, d⟩ := e
    simp only [featureRemovals, hq, submodelDeletes, elementDeletes, List.filter_cons,
      List.flatMap_cons] at hi he ⊢
    cases h : resolve config host now s.url (some t) fid with
    | raised => exact absurd h (resolve_ne_raised now hc _ _ _)
    | unconfigured => exact ⟨_, rfl, by simp [hi, Item.call], by simpa using he⟩
    | found sel =>
      refine ⟨_, rfl, by simpa using hi, ?_⟩
      simp only [Removals.elements_append, List.map_append, he, elementsOut]
      split <;> simp [elementCall, Function.comp_def]

/-- One thing queues what §4.5 prescribes for it. -/
theorem thingRemovals_calls (hc : config.WellTimed host.fromisoformat) (s : SourceRule)
    (th : Thing) (hf : (snap.features s.url s.auth (pyFormat th.thingId)).isSome) :
    ∃ q, thingRemovals config snap host now s th = some q ∧
      q.calls = thingDeletes config snap host now s th := by
  obtain ⟨_ | t⟩ := th
  · exact ⟨_, rfl, rfl⟩
  by_cases ht : t = ""
  · exact ⟨⟨[], []⟩, by simp [thingRemovals, ht], by simp [thingDeletes, ht, Removals.calls]⟩
  obtain ⟨feats, hfe⟩ := Option.isSome_iff_exists.mp hf
  simp only [pyFormat] at hfe
  simp only [thingRemovals, thingDeletes, ht, if_false, hfe, thingHasExports_eq now hc,
    Option.map_some', Option.getD_some, expectedThingDeletes]
  cases hall : feats.entries.all fun e => resolve config host now s.url (some t) e.1 = .unconfigured
  · obtain ⟨q, hq, hi, he⟩ := featureRemovals_calls now hc s t feats.entries
    exact ⟨q, by simpa using hq, by simp [Removals.calls, hi, he]⟩
  · -- no feature is exported: the shell and every submodel
    have hu : ∀ e ∈ feats.entries, resolve config host now s.url (some t) e.1 = .unconfigured := by
      simpa using hall
    have hs : submodelDeletes config host now s t feats.entries =
        feats.entries.map fun e => .deleteSubmodel (encodeId (submodelId t e.1)) := by
      rw [submodelDeletes, List.filter_eq_self.mpr (by simpa using hu)]
    have he : elementDeletes config host now s t feats.entries = [] :=
      List.flatMap_eq_nil_iff.mpr fun e he => by simp [hu e he]
    refine ⟨_, rfl, ?_⟩
    simp [Removals.calls, Item.call, hs, he, Dict.keys, Function.comp_def]

/-- The things of a source rule queue what §4.5 prescribes for each, up to order. -/
theorem thingsRemovals_calls (hc : config.WellTimed host.fromisoformat) (s : SourceRule)
    (ths : List Thing) (hf : ∀ th ∈ ths, (snap.features s.url s.auth (pyFormat th.thingId)).isSome) :
    ∃ q, thingsRemovals config snap host now s ths = some q ∧
      q.calls.Perm (ths.flatMap (thingDeletes config snap host now s)) := by
  induction ths with
  | nil => exact ⟨_, rfl, .nil⟩
  | cons th ths ih =>
    obtain ⟨a, ha, hpa⟩ := thingRemovals_calls now hc s th (hf th (List.mem_cons_self _ _))
    obtain ⟨b, hb, hpb⟩ := ih fun th' h' => hf th' (List.mem_cons_of_mem _ h')
    refine ⟨a ++ b, by simp [thingsRemovals, ha, hb], ?_⟩
    rw [List.flatMap_cons, ← hpa]
    exact (Removals.calls_append_perm a b).trans (hpb.append_left _)

/-- The source rules queue what §4.5 prescribes for each, up to order. -/
theorem sourcesRemovals_calls (hc : config.WellTimed host.fromisoformat) (ss : List SourceRule)
    (hs : ∀ s ∈ ss, snap.ServesRule s) :
    ∃ q, sourcesRemovals config snap host now ss = some q ∧
      q.calls.Perm (ss.flatMap fun s =>
        ((snap.things s.url s.auth).getD []).flatMap (thingDeletes config snap host now s)) := by
  induction ss with
  | nil => exact ⟨_, rfl, .nil⟩
  | cons s ss ih =>
    obtain ⟨ths, hths, hf⟩ := hs s (List.mem_cons_self _ _)
    obtain ⟨a, ha, hpa⟩ := thingsRemovals_calls now hc s ths hf
    obtain ⟨b, hb, hpb⟩ := ih fun s' h' => hs s' (List.mem_cons_of_mem _ h')
    refine ⟨a ++ b, by simp [sourcesRemovals, hths, ha, hb], ?_⟩
    rw [List.flatMap_cons, hths, Option.getD_some]
    exact (Removals.calls_append_perm a b).trans (hpa.append hpb)

/-- On a well-timed policy, when every fetch succeeds, the first phase does not raise, and it
queues the calls of §4.5. -/
theorem removals_perm (hc : config.WellTimed host.fromisoformat) (hs : snap.Serves config) :
    ∃ q, removals config snap host now = some q ∧
      q.calls.Perm (expectedDeletes config snap host now) :=
  sourcesRemovals_calls now hc config.sourceRules hs

/-- On a well-timed policy, when every fetch succeeds, the cleanup pass deletes what §4.5
prescribes, as a multiset, when a BaSyx URL is configured, and nothing otherwise. -/
theorem cleanupCalls_perm (hc : config.WellTimed host.fromisoformat) (hs : snap.Serves config) :
    (cleanupCalls config snap host now).Perm
      (if config.basyxConfigured then expectedDeletes config snap host now else []) := by
  unfold cleanupCalls
  split
  · obtain ⟨q, hq, hp⟩ := removals_perm now hc hs
    simpa [hq] using hp
  · exact .nil

end Cleanup

/-- A host whose parsing, key loading and verification all fail, and which writes every value as
the empty string. -/
def inertHost : Host := ⟨fun _ => none, fun _ => "", fun _ => none, fun _ _ _ => false⟩

/-- A policy with one source rule `u` without thing rules, and `basyx.url` as given. -/
def oneSourcePolicy (basyx_url : Option String) : Config :=
  { sources := some [{ source_url := some "u" }], basyx_url }

/-- A source that reports one thing `t` with one feature `f` without properties. -/
def oneThingSnapshot : Snapshot :=
  ⟨fun _ _ => some [⟨some "t"⟩], fun _ _ _ => some ⟨[("f", ⟨none⟩)], by simp⟩⟩

/-- `oneSourcePolicy` has no thing rule to time. -/
theorem oneSourcePolicy_wellTimed (basyx_url : Option String) (f : String → Option DateTime) :
    (oneSourcePolicy basyx_url).WellTimed f := by
  simp [Config.WellTimed, oneSourcePolicy, Config.sourceRules, SourceRule.thingRules]

/-- Every fetch from `oneThingSnapshot` succeeds. -/
theorem oneThingSnapshot_serves (config : Config) : oneThingSnapshot.Serves config := by
  simp [Snapshot.Serves, Snapshot.ServesRule, oneThingSnapshot]

/-- The host of the timestamps of the year 2000. -/
def host2000 : Host := { inertHost with fromisoformat := fromisoformat2000 }

/-- Source rule `u` exports property `p` of feature `f` of thing `t`, with a downtime window in the
year 2000. -/
def retirePolicy : Config :=
  { sources := some [{ source_url := some "u", things := some [
      { thing_id := some "t",
        downtime := some ⟨some "2000-01-01T00:00:00", some "2000-01-01T00:00:00"⟩,
        features := some [{ feature_id := some "f", properties := some ["p"] }] }] }],
    basyx_url := some "b" }

/-- Source `u` lists thing `t`, with feature `f` (properties `p` and `q`) and feature `g` without
properties, and thing `x`, with feature `f` without properties. -/
def retireSnapshot : Snapshot :=
  ⟨fun _ _ => some [⟨some "t"⟩, ⟨some "x"⟩],
    fun _ _ k => if k = "t" then
        some ⟨[("f", ⟨some ⟨[("p", .str "7"), ("q", .str "8")], by simp⟩⟩), ("g", ⟨none⟩)], by simp⟩
      else some ⟨[("f", ⟨none⟩)], by simp⟩⟩

/-- The thing rule of `retirePolicy` carries two naive timestamps. -/
theorem retirePolicy_wellTimed : retirePolicy.WellTimed fromisoformat2000 := by
  intro s hs r hr
  simp only [retirePolicy, Config.sourceRules, Option.getD_some, List.mem_singleton] at hs
  subst hs
  simp only [SourceRule.thingRules, Option.getD_some, List.mem_singleton] at hr
  subst hr
  exact ⟨_, _, rfl, rfl, rfl, rfl⟩

/-- Every fetch from `retireSnapshot` succeeds. -/
theorem retireSnapshot_serves (config : Config) : retireSnapshot.Serves config := by
  simp [Snapshot.Serves, Snapshot.ServesRule, retireSnapshot]

/-- On `retirePolicy`, §4.5 deletes submodel `t:g` and element `q` of `t:f`, which `t` no longer
exports while it exports `f`, and the shell of `x` with its submodel `x:f`; the cleanup pass sends
those deletes. -/
theorem cleanupCalls_perm_retire :
    retirePolicy.WellTimed host2000.fromisoformat ∧ retireSnapshot.Serves retirePolicy ∧
      expectedDeletes retirePolicy retireSnapshot host2000 0 =
        [.deleteSubmodel (encodeId (submodelId "t" "g")),
          .deleteElement (encodeId (submodelId "t" "f")) "q", .deleteShell (encodeId "x"),
          .deleteSubmodel (encodeId (submodelId "x" "f"))] ∧
      (cleanupCalls retirePolicy retireSnapshot host2000 0).Perm
        (if retirePolicy.basyxConfigured then
          expectedDeletes retirePolicy retireSnapshot host2000 0 else []) :=
  ⟨retirePolicy_wellTimed, retireSnapshot_serves _, by decide,
    cleanupCalls_perm 0 retirePolicy_wellTimed (retireSnapshot_serves _)⟩

/-- Without `basyx.url` the cleanup pass deletes nothing, though §4.5 deletes the shell and the
submodel of a thing none of whose features is exported. -/
theorem cleanupCalls_not_expected :
    (oneSourcePolicy none).WellTimed inertHost.fromisoformat ∧
      oneThingSnapshot.Serves (oneSourcePolicy none) ∧
      ¬ (cleanupCalls (oneSourcePolicy none) oneThingSnapshot inertHost 0).Perm
        (expectedDeletes (oneSourcePolicy none) oneThingSnapshot inertHost 0) := by
  refine ⟨oneSourcePolicy_wellTimed _ _, oneThingSnapshot_serves _, ?_⟩
  have hr : resolve (oneSourcePolicy none) inertHost 0 "u" (some "t") "f" = .unconfigured := rfl
  simp only [oneSourcePolicy] at hr
  simp [cleanupCalls, oneSourcePolicy, Config.basyxConfigured, expectedDeletes, Config.sourceRules,
    oneThingSnapshot, thingDeletes, expectedThingDeletes, SourceRule.url, hr]

end TwinExporter
