import Mathlib.Data.List.Nodup

/-!
# JSON values and Python dictionaries

The exporter reads everything it handles from JSON: the policy document, the things and the
features that Ditto returns, and the property bundles that it mirrors and verifies. A property
value is a `JsonValue`, as `json.loads` builds it. A float is kept as its `repr`, which CPython
prints as the shortest decimal that reads back as the same double, so that the text determines
the float; `json.dumps` prints it from that text.

A Python `dict` decoded from JSON has one entry per key, in the order of the document. `Dict`
carries that as a field, so that a lookup, a comprehension, or `del` never meets a second entry
for a key.
-/

namespace TwinExporter

/-- A value that `json.loads` returns. -/
inductive JsonValue where
  /-- `None`. -/
  | null
  /-- `True` or `False`. -/
  | bool (b : Bool)
  /-- An `int`. -/
  | int (n : Int)
  /-- A `float`, by its `repr`. -/
  | float (repr : String)
  /-- A `str`. -/
  | str (s : String)
  /-- A `list`. -/
  | array (items : List JsonValue)
  /-- A `dict` with string keys, in the order of its entries. -/
  | object (entries : List (String × JsonValue))

/-- A Python `dict` with string keys: its entries in insertion order, one for each key. -/
structure Dict (α : Type) where
  /-- The `(key, value)` pairs, as `dict.items()` lists them. -/
  entries : List (String × α)
  /-- A dictionary holds one entry per key. -/
  nodup : (entries.map Prod.fst).Nodup

namespace Dict

variable {α : Type}

/-- `{}`. -/
def empty : Dict α := ⟨[], List.nodup_nil⟩

/-- `d.keys()`. -/
def keys (d : Dict α) : List String := d.entries.map Prod.fst

/-- `d.get(k)`: the value of key `k`, or `None`. -/
def get? (d : Dict α) (k : String) : Option α := d.entries.lookup k

/-- `{k: v for k, v in d.items() if p(k)}`: the entries whose key passes `p`, in order. -/
def filterKeys (d : Dict α) (p : String → Bool) : Dict α :=
  ⟨d.entries.filter (p ·.1), d.nodup.sublist ((List.filter_sublist _).map _)⟩

/-- `{k: v for k, v in d.items() if k != key}`: the dictionary without `key`. -/
def erase (d : Dict α) (key : String) : Dict α := d.filterKeys (· != key)

/-- `{}` has no keys. -/
@[simp] theorem keys_empty : (empty : Dict α).keys = [] := rfl

/-- The entries kept by a filter on keys, in order. -/
@[simp] theorem entries_filterKeys (d : Dict α) (p : String → Bool) :
    (d.filterKeys p).entries = d.entries.filter (p ·.1) := rfl

/-- A key of a dictionary has a value. -/
theorem mem_keys_iff (d : Dict α) (k : String) : k ∈ d.keys ↔ ∃ v, d.get? k = some v := by
  unfold keys get?
  induction d.entries with
  | nil => simp
  | cons e es ih =>
    obtain ⟨k', v'⟩ := e
    by_cases h : k = k'
    · simp [List.lookup_cons, h]
    · have hb : (k == k') = false := by simpa using h
      simp [List.lookup_cons, h, hb, ih]

/-- The value of a key is the value of its entry: an entry `(k, v)` of a dictionary is what
`get` returns for `k`. -/
theorem get?_of_mem {d : Dict α} {k : String} {v : α} (h : (k, v) ∈ d.entries) :
    d.get? k = some v := by
  obtain ⟨es, hnd⟩ := d
  unfold get?
  induction es with
  | nil => simp at h
  | cons e es ih =>
    obtain ⟨k', v'⟩ := e
    simp only [List.map_cons, List.nodup_cons, List.mem_map] at hnd
    rcases List.mem_cons.mp h with he | he
    · cases he; simp [List.lookup_cons]
    · have hk : (k == k') = false := by simpa using fun hk => hnd.1 ⟨(k, v), he, hk⟩
      simpa [List.lookup_cons, hk] using ih hnd.2 he

/-- What `get` returns for `k` is the value of an entry of `k`. -/
theorem mem_of_get? {d : Dict α} {k : String} {v : α} (h : d.get? k = some v) :
    (k, v) ∈ d.entries := by
  obtain ⟨es, hnd⟩ := d
  simp only [get?] at h ⊢
  clear hnd
  induction es with
  | nil => simp [List.lookup_cons] at h
  | cons e es ih =>
    obtain ⟨k', v'⟩ := e
    by_cases hk : k = k'
    · subst hk
      simp only [List.lookup_cons, beq_self_eq_true, Option.some.injEq] at h
      subst h
      exact List.mem_cons_self _ _
    · have hb : (k == k') = false := by simpa using hk
      simp only [List.lookup_cons, hb] at h
      exact List.mem_cons_of_mem _ (ih h)

/-- In a dictionary, an entry is what `get` returns for its key. -/
theorem get?_eq_some_iff {d : Dict α} {k : String} {v : α} : d.get? k = some v ↔ (k, v) ∈ d.entries :=
  ⟨mem_of_get?, get?_of_mem⟩

/-- `d[key] = value`: the entry of `key` takes `value` in place, or a new entry comes last. -/
def insert (d : Dict α) (key : String) (value : α) : Dict α :=
  if h : key ∈ d.keys then
    ⟨d.entries.map fun e => if e.1 = key then (key, value) else e, by
      have hk : (d.entries.map fun e => if e.1 = key then (key, value) else e).map Prod.fst =
          d.entries.map Prod.fst := by
        rw [List.map_map]
        exact List.map_congr_left fun e _ => by
          simp only [Function.comp_apply]
          split_ifs with he
          · exact he.symm
          · rfl
      rw [hk]
      exact d.nodup⟩
  else ⟨d.entries ++ [(key, value)], by
    rw [List.map_append, List.map_singleton, List.nodup_append]
    exact ⟨d.nodup, List.nodup_singleton _, List.disjoint_singleton.mpr h⟩⟩

/-- `d[key] = value` with a new key adds its entry last. -/
theorem entries_insert_of_not_mem {d : Dict α} {key : String} (h : key ∉ d.keys) (value : α) :
    (d.insert key value).entries = d.entries ++ [(key, value)] := by
  simp [insert, h]

/-- After `d[key] = value`, every entry is one of `d` or the new one. -/
theorem mem_entries_insert {d : Dict α} {key : String} {value : α} {e : String × α}
    (he : e ∈ (d.insert key value).entries) : e ∈ d.entries ∨ e = (key, value) := by
  unfold insert at he
  split_ifs at he with h
  · obtain ⟨e', he', rfl⟩ := List.mem_map.mp he
    split_ifs
    · exact .inr rfl
    · exact .inl he'
  · simpa using he

end Dict

end TwinExporter
