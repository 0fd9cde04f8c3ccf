/-! # Maps that remember insertion order

An ordered map is the list of its bindings in the order in which the keys first came in. Giving a
known key a new value leaves the key where it is, so the order of the keys depends only on when
each was first inserted. A lookup answers with the first binding, and every map that the operations
below build has at most one binding per key.
-/

namespace Reconciler

/-- Bindings in the order in which their keys were first inserted. -/
structure OrderedMap (κ ν : Type) where
  entries : List (κ × ν) := []
deriving DecidableEq, Repr, Inhabited

namespace OrderedMap

variable {κ ν : Type}

def empty : OrderedMap κ ν := ⟨[]⟩

def keys (map : OrderedMap κ ν) : List κ := map.entries.map Prod.fst

def values (map : OrderedMap κ ν) : List ν := map.entries.map Prod.snd

def size (map : OrderedMap κ ν) : Nat := map.entries.length

def isEmpty (map : OrderedMap κ ν) : Bool := map.entries.isEmpty

section Keyed

variable [DecidableEq κ]

/-- The bindings after `key` got `value`: in place if the key is known, else at the end. -/
def put (key : κ) (value : ν) : List (κ × ν) → List (κ × ν)
  | [] => [(key, value)]
  | (other, old) :: rest =>
      if other = key then (other, value) :: rest else (other, old) :: put key value rest

def get? (map : OrderedMap κ ν) (key : κ) : Option ν :=
  (map.entries.find? (fun entry => decide (entry.1 = key))).map Prod.snd

def contains (map : OrderedMap κ ν) (key : κ) : Bool := (map.get? key).isSome

def insert (map : OrderedMap κ ν) (key : κ) (value : ν) : OrderedMap κ ν :=
  ⟨put key value map.entries⟩

/-- Drop a key; the others keep their order. -/
def erase (map : OrderedMap κ ν) (key : κ) : OrderedMap κ ν :=
  ⟨map.entries.filter (fun entry => decide (entry.1 ≠ key))⟩

/-- Insert bindings from left to right, so the last value given to a key wins. -/
def insertAll (map : OrderedMap κ ν) (bindings : List (κ × ν)) : OrderedMap κ ν :=
  bindings.foldl (fun done binding => done.insert binding.1 binding.2) map

def ofList (bindings : List (κ × ν)) : OrderedMap κ ν := empty.insertAll bindings

@[simp] theorem get?_empty (key : κ) : (empty : OrderedMap κ ν).get? key = none := rfl

theorem find?_put (key : κ) (value : ν) (wanted : κ) (bindings : List (κ × ν)) :
    ((put key value bindings).find? (fun entry => decide (entry.1 = wanted))).map Prod.snd =
      if key = wanted then some value
      else (bindings.find? (fun entry => decide (entry.1 = wanted))).map Prod.snd := by
  induction bindings with
  | nil => by_cases same : key = wanted <;> simp [put, same]
  | cons binding rest ih =>
    obtain ⟨other, old⟩ := binding
    by_cases known : other = key
    · subst known
      by_cases same : other = wanted <;> simp [put, same]
    · by_cases here : other = wanted
      · subst here
        simp [put, known, Ne.symm known]
      · simpa [put, known, here] using ih

/-- A lookup after an insertion sees the new value under its key and the old map elsewhere. -/
theorem get?_insert (map : OrderedMap κ ν) (key wanted : κ) (value : ν) :
    (map.insert key value).get? wanted = if key = wanted then some value else map.get? wanted :=
  find?_put key value wanted map.entries

theorem keys_put (key : κ) (value : ν) (bindings : List (κ × ν)) :
    (put key value bindings).map Prod.fst =
      if key ∈ bindings.map Prod.fst then bindings.map Prod.fst
      else bindings.map Prod.fst ++ [key] := by
  induction bindings with
  | nil => simp [put]
  | cons binding rest ih =>
    obtain ⟨other, old⟩ := binding
    by_cases known : other = key
    · simp [put, known]
    · by_cases later : key ∈ rest.map Prod.fst
      · simp [put, known, ih, later]
      · simp [put, known, ih, later, Ne.symm known]

/-- A known key keeps its place and a new one goes to the end. -/
theorem keys_insert (map : OrderedMap κ ν) (key : κ) (value : ν) :
    (map.insert key value).keys = if key ∈ map.keys then map.keys else map.keys ++ [key] :=
  keys_put key value map.entries

theorem keys_nodup_insert {map : OrderedMap κ ν} (distinct : map.keys.Nodup) (key : κ) (value : ν) :
    (map.insert key value).keys.Nodup := by
  rw [keys_insert]
  split
  · exact distinct
  · next absent =>
    exact List.nodup_append.2 ⟨distinct, by simp, fun a member b single => by
      rintro rfl
      exact absent (List.mem_singleton.1 single ▸ member)⟩

theorem keys_nodup_insertAll {map : OrderedMap κ ν} (distinct : map.keys.Nodup)
    (bindings : List (κ × ν)) : (map.insertAll bindings).keys.Nodup := by
  induction bindings generalizing map with
  | nil => exact distinct
  | cons binding rest ih => exact ih (keys_nodup_insert distinct _ _)

/-- A new key goes to the end. -/
theorem put_of_new {key : κ} {value : ν}
    {entries : List (κ × ν)} (new : key ∉ entries.map Prod.fst) :
    put key value entries = entries ++ [(key, value)] := by
  induction entries with
  | nil => rfl
  | cons head rest ih =>
    rw [List.map_cons, List.mem_cons, not_or] at new
    rw [put, if_neg (Ne.symm new.1), ih new.2, List.cons_append]

/-- The last binding is inserted last. -/
theorem ofList_append (bindings : List (κ × ν)) (key : κ) (value : ν) :
    ofList (bindings ++ [(key, value)]) = (ofList bindings).insert key value := by
  rw [ofList, insertAll, List.foldl_append]
  rfl

theorem mem_keys_insertAll (map : OrderedMap κ ν) (bindings : List (κ × ν)) (key : κ) :
    key ∈ (map.insertAll bindings).keys ↔ key ∈ map.keys ∨ key ∈ bindings.map Prod.fst := by
  induction bindings generalizing map with
  | nil => simp [insertAll]
  | cons binding rest ih =>
    have next : map.insertAll (binding :: rest) = (map.insert binding.1 binding.2).insertAll rest := rfl
    have here : key ∈ (map.insert binding.1 binding.2).keys ↔ key ∈ map.keys ∨ key = binding.1 := by
      rw [keys_insert]
      split
      · next known => exact ⟨.inl, fun either => either.elim id fun same => same ▸ known⟩
      · rw [List.mem_append, List.mem_singleton]
    rw [next, ih, here, List.map_cons, List.mem_cons, or_assoc]

/-- The value of a key that all its bindings agree on. -/
theorem get?_insertAll_map (map : OrderedMap κ ν) (keys : List κ) (value : κ → ν) (key : κ) :
    (map.insertAll (keys.map (fun key => (key, value key)))).get? key =
      if key ∈ keys then some (value key) else map.get? key := by
  induction keys generalizing map with
  | nil => simp [insertAll]
  | cons head rest ih =>
    have next : map.insertAll ((head :: rest).map (fun key => (key, value key))) =
        (map.insert head (value head)).insertAll (rest.map (fun key => (key, value key))) := rfl
    rw [next, ih, get?_insert]
    by_cases later : key ∈ rest
    · simp [later]
    · by_cases same : head = key
      · simp [same]
      · simp [later, same, Ne.symm same]

/-- A lookup finds every binding if the keys are different. -/
theorem find?_of_mem {bindings : List (κ × ν)} (distinct : (bindings.map Prod.fst).Nodup) :
    ∀ binding ∈ bindings, bindings.find? (fun other => decide (other.1 = binding.1)) = some binding := by
  induction bindings with
  | nil => exact fun _ listed => by cases listed
  | cons head rest ih =>
    rw [List.map_cons, List.nodup_cons] at distinct
    refine List.forall_mem_cons.2 ⟨by simp, fun binding later => ?_⟩
    have other : head.1 ≠ binding.1 :=
      fun same => distinct.1 (same ▸ List.mem_map.2 ⟨binding, later, rfl⟩)
    rw [List.find?_cons_of_neg (by simpa using other), ih distinct.2 binding later]

/-- Bindings of different keys stay as they are. -/
theorem insertAll_of_nodup (map : OrderedMap κ ν) {bindings : List (κ × ν)}
    (distinct : (map.keys ++ bindings.map Prod.fst).Nodup) :
    map.insertAll bindings = ⟨map.entries ++ bindings⟩ := by
  induction bindings generalizing map with
  | nil =>
    rw [List.append_nil]
    rfl
  | cons binding rest ih =>
    have new : binding.1 ∉ map.entries.map Prod.fst :=
      fun known => (List.nodup_append.1 distinct).2.2 _ known _ List.mem_cons_self rfl
    have inserted : map.insert binding.1 binding.2 = ⟨map.entries ++ [binding]⟩ := by
      rw [insert, put_of_new new]
    have next : map.insertAll (binding :: rest) = (map.insert binding.1 binding.2).insertAll rest := rfl
    rw [next, inserted, ih, List.append_assoc, List.singleton_append]
    rw [keys, List.map_append, List.append_assoc]
    exact distinct

theorem ofList_of_nodup {bindings : List (κ × ν)} (distinct : (bindings.map Prod.fst).Nodup) :
    ofList bindings = ⟨bindings⟩ :=
  insertAll_of_nodup empty distinct

/-- A listed key gets a value that it is listed with, and any other key stays as it is. -/
theorem get?_insertAll_zip {α : Type} (related : α → ν → Prop) {keys : List κ} {attr : κ → α}
    {values : List ν} (length : keys.length = values.length)
    (all : ∀ entry ∈ keys.zip values, related (attr entry.1) entry.2) (map : OrderedMap κ ν) (key : κ) :
    (key ∈ keys ∧ ∃ value, (map.insertAll (keys.zip values)).get? key = some value ∧ related (attr key) value) ∨
      key ∉ keys ∧ (map.insertAll (keys.zip values)).get? key = map.get? key := by
  induction keys generalizing values map with
  | nil => exact .inr ⟨List.not_mem_nil, rfl⟩
  | cons head rest ih =>
    cases values with
    | nil => cases length
    | cons value values =>
      rw [List.zip_cons_cons, List.forall_mem_cons] at all
      rcases ih (Nat.succ.inj length) all.2 (map.insert head value) with ⟨later, found⟩ | ⟨absent, same⟩
      · exact .inl ⟨List.mem_cons_of_mem _ later, found⟩
      · rw [get?_insert] at same
        by_cases here : head = key
        · subst here
          exact .inl ⟨List.mem_cons_self, value, same.trans (if_pos rfl), all.1⟩
        · exact .inr ⟨by simp [absent, Ne.symm here], same.trans (if_neg here)⟩

end Keyed

end OrderedMap

end Reconciler
