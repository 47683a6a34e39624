import LiveTemplate.Text.Basic

namespace LiveTemplate

structure Table (β : Type) where
  entries : List (Text × β) := []
  deriving DecidableEq, Repr

namespace Table

variable {β : Type}

def findIn (key : Text) : List (Text × β) → Option β
  | [] => none
  | (k, v) :: more => if k = key then some v else findIn key more

def insertIn (key : Text) (value : β) : List (Text × β) → List (Text × β)
  | [] => [(key, value)]
  | (k, v) :: more => if k = key then (k, value) :: more else (k, v) :: insertIn key value more

def removeIn (key : Text) : List (Text × β) → List (Text × β)
  | [] => []
  | (k, v) :: more => if k = key then more else (k, v) :: removeIn key more

def get? (t : Table β) (key : Text) : Option β :=
  findIn key t.entries

def contains (t : Table β) (key : Text) : Bool :=
  (t.get? key).isSome

/-- A key that is present keeps its place and takes the new value; a new key comes last. -/
def insert (t : Table β) (key : Text) (value : β) : Table β :=
  ⟨insertIn key value t.entries⟩

def insertNew (t : Table β) (key : Text) (value : β) : Table β :=
  if t.contains key then t else t.insert key value

def remove (t : Table β) (key : Text) : Table β :=
  ⟨removeIn key t.entries⟩

def extract (t : Table β) (key : Text) : Option β × Table β :=
  match t.entries.findIdx? (·.1 = key) with
  | none => (none, t)
  | some place => (t.entries[place]?.map (·.2), ⟨t.entries.eraseIdx place⟩)

def ofList (pairs : List (Text × β)) : Table β :=
  pairs.foldl (fun t (key, value) => t.insert key value) {}

def keys (t : Table β) : List Text :=
  t.entries.map (·.1)

def size (t : Table β) : Nat :=
  t.entries.length

theorem get?_insert (t : Table β) (key other : Text) (value : β) :
    (t.insert key value).get? other = if key = other then some value else t.get? other := by
  suffices ∀ l : List (Text × β), findIn other (insertIn key value l) =
      if key = other then some value else findIn other l from this t.entries
  intro l
  induction l with
  | nil => simp [insertIn, findIn]
  | cons entry more ih =>
      obtain ⟨k, v⟩ := entry
      simp only [insertIn, findIn]
      split <;> simp only [findIn] <;> grind

theorem mem_keys_iff (t : Table β) (key : Text) : key ∈ t.keys ↔ (t.get? key).isSome := by
  suffices ∀ l : List (Text × β), key ∈ l.map (·.1) ↔ (findIn key l).isSome from this t.entries
  intro l
  induction l with
  | nil => simp [findIn]
  | cons entry more ih =>
      obtain ⟨k, v⟩ := entry
      simp only [findIn, List.map_cons, List.mem_cons]
      split <;> grind

theorem keys_insert (t : Table β) (key : Text) (value : β) :
    (t.insert key value).keys = if key ∈ t.keys then t.keys else t.keys ++ [key] := by
  suffices ∀ l : List (Text × β), (insertIn key value l).map (·.1) =
      if key ∈ l.map (·.1) then l.map (·.1) else l.map (·.1) ++ [key] from this t.entries
  intro l
  induction l with
  | nil => simp [insertIn]
  | cons entry more ih =>
      obtain ⟨k, v⟩ := entry
      simp only [insertIn]
      by_cases same : k = key
      · simp [same]
      · simp only [same, if_false, List.map_cons, ih, List.mem_cons, Ne.symm same, false_or]
        split <;> simp

theorem mem_keys_insert (t : Table β) (key other : Text) (value : β) :
    other ∈ (t.insert key value).keys ↔ other ∈ t.keys ∨ key = other := by
  rw [mem_keys_iff, get?_insert, mem_keys_iff]
  by_cases same : key = other <;> simp [same]

theorem insert_of_not_mem (t : Table β) {key : Text} (fresh : key ∉ t.keys) (value : β) :
    t.insert key value = ⟨t.entries ++ [(key, value)]⟩ := by
  suffices ∀ l : List (Text × β), key ∉ l.map (·.1) →
      insertIn key value l = l ++ [(key, value)] from congrArg Table.mk (this t.entries fresh)
  intro l
  induction l with
  | nil => intro _; rfl
  | cons entry more ih =>
      obtain ⟨k, v⟩ := entry
      intro absent
      rw [List.map_cons, List.mem_cons, not_or] at absent
      rw [insertIn, if_neg (Ne.symm absent.1), ih absent.2, List.cons_append]

theorem insert_comm (t : Table β) {key other : Text} (known : key ∈ t.keys) (apart : key ≠ other)
    (value second : β) :
    (t.insert key value).insert other second = (t.insert other second).insert key value := by
  suffices ∀ l : List (Text × β), key ∈ l.map (·.1) →
      insertIn other second (insertIn key value l) = insertIn key value (insertIn other second l)
    from congrArg Table.mk (this t.entries known)
  intro l
  induction l with
  | nil => simp
  | cons entry more ih =>
      obtain ⟨k, v⟩ := entry
      intro member
      by_cases first : k = key
      · simp [insertIn, first, apart]
      · have inside : key ∈ more.map (·.1) := by simpa [Ne.symm first] using member
        by_cases same : k = other <;> simp [insertIn, first, same, apart.symm, ih inside]

theorem contains_eq_true_iff (t : Table β) (key : Text) : t.contains key ↔ key ∈ t.keys := by
  rw [mem_keys_iff, contains]

theorem get?_insertNew (t : Table β) (key other : Text) (value : β) :
    (t.insertNew key value).get? other =
      (t.get? other).or (if key = other then some value else none) := by
  rw [insertNew]
  split
  · rename_i present
    by_cases same : key = other
    · obtain ⟨found, known⟩ := Option.isSome_iff_exists.mp present
      rw [← same, known, Option.some_or]
    · rw [if_neg same, Option.or_none]
  · rename_i missing
    rw [get?_insert]
    by_cases same : key = other
    · have unknown : t.get? other = none := by simpa [contains, same] using missing
      rw [if_pos same, if_pos same, unknown, Option.none_or]
    · rw [if_neg same, if_neg same, Option.or_none]

theorem nodup_keys_insert {t : Table β} (distinct : t.keys.Nodup) (key : Text) (value : β) :
    (t.insert key value).keys.Nodup := by
  rw [keys_insert]
  split
  · exact distinct
  · rename_i fresh
    refine List.nodup_append.mpr ⟨distinct, by simp, ?_⟩
    intro known member other last same
    rw [List.mem_singleton.mp last] at same
    exact fresh (same ▸ member)

theorem nodup_keys_insertNew {t : Table β} (distinct : t.keys.Nodup) (key : Text) (value : β) :
    (t.insertNew key value).keys.Nodup := by
  rw [insertNew]
  split
  · exact distinct
  · exact nodup_keys_insert distinct key value

/-- Of several values for one key the first is kept. -/
theorem get?_foldl_insertNew (l : List (Text × β)) (t : Table β) (key : Text) :
    (l.foldl (fun t (k, value) => t.insertNew k value) t).get? key =
      (t.get? key).or ((l.find? (·.1 = key)).map (·.2)) := by
  induction l generalizing t with
  | nil => simp
  | cons entry more ih =>
      obtain ⟨k, v⟩ := entry
      rw [List.foldl_cons, ih, get?_insertNew, Option.or_assoc, List.find?_cons]
      by_cases same : k = key <;> simp [same]

theorem nodup_keys_foldl_insertNew (l : List (Text × β)) {t : Table β} (distinct : t.keys.Nodup) :
    (l.foldl (fun t (k, value) => t.insertNew k value) t).keys.Nodup := by
  induction l generalizing t with
  | nil => exact distinct
  | cons entry more ih => exact ih (nodup_keys_insertNew distinct entry.1 entry.2)

theorem insertNew_of_not_mem (t : Table β) {key : Text} (fresh : key ∉ t.keys) (value : β) :
    t.insertNew key value = ⟨t.entries ++ [(key, value)]⟩ := by
  rw [insertNew, if_neg (mt (t.contains_eq_true_iff key).mp fresh), insert_of_not_mem t fresh]

theorem getElem?_idxOf (t : Table β) {key : Text} {value : β} (found : t.get? key = some value) :
    t.entries[t.keys.idxOf key]? = some (key, value) := by
  suffices ∀ l : List (Text × β), findIn key l = some value →
      l[(l.map (·.1)).idxOf key]? = some (key, value) from this t.entries found
  intro l found
  induction l with
  | nil => simp [findIn] at found
  | cons entry more ih =>
      obtain ⟨k, v⟩ := entry
      rw [findIn] at found
      by_cases same : k = key
      · simp_all
      · rw [if_neg same] at found
        have other : (k == key) = false := by simpa using same
        simpa [List.idxOf_cons, other] using ih found

theorem get?_of_mem {t : Table β} (distinct : t.keys.Nodup) {key : Text} {value : β}
    (member : (key, value) ∈ t.entries) : t.get? key = some value := by
  suffices ∀ l : List (Text × β), (l.map (·.1)).Nodup → (key, value) ∈ l →
      findIn key l = some value from this t.entries distinct member
  intro l
  induction l with
  | nil => simp
  | cons entry more ih =>
      obtain ⟨k, v⟩ := entry
      intro apart inside
      rw [List.map_cons, List.nodup_cons] at apart
      rcases List.mem_cons.mp inside with same | later
      · obtain ⟨rfl, rfl⟩ := Prod.mk.inj same
        rw [findIn, if_pos rfl]
      · have listed : key ∈ more.map (·.1) := List.mem_map_of_mem later
        have other : k ≠ key := fun same => apart.1 (same ▸ listed)
        rw [findIn, if_neg other, ih apart.2 later]

theorem filter_insert (t : Table β) (key : Text) (value : β) :
    (t.insert key value).entries.filter (·.1 ≠ key) = t.entries.filter (·.1 ≠ key) := by
  suffices ∀ l : List (Text × β),
      (insertIn key value l).filter (·.1 ≠ key) = l.filter (·.1 ≠ key) from this t.entries
  intro l
  induction l with
  | nil => simp [insertIn]
  | cons entry more ih =>
      obtain ⟨k, v⟩ := entry
      rw [insertIn]
      by_cases same : k = key
      · simp [same]
      · rw [if_neg same, List.filter_cons, List.filter_cons, ih]

theorem entries_insert {t : Table β} (distinct : t.keys.Nodup) {key : Text} (known : key ∈ t.keys)
    (value : β) : (t.insert key value).entries =
      t.entries.map fun entry => if entry.1 = key then (key, value) else entry := by
  suffices ∀ l : List (Text × β), (l.map (·.1)).Nodup → key ∈ l.map (·.1) →
      insertIn key value l = l.map fun entry => if entry.1 = key then (key, value) else entry from
    this t.entries distinct known
  intro l
  induction l with
  | nil => simp
  | cons entry more ih =>
      obtain ⟨k, v⟩ := entry
      intro apart member
      rw [List.map_cons, List.nodup_cons] at apart
      rw [insertIn, List.map_cons]
      by_cases same : k = key
      · have others : ∀ entry ∈ more, entry.1 ≠ key := by
          intro entry inside again
          have listed : entry.1 ∈ more.map (·.1) := List.mem_map_of_mem inside
          exact apart.1 (by rwa [same, ← again])
        have kept : (more.map fun entry => if entry.1 = key then (key, value) else entry) = more := by
          refine (List.map_congr_left fun entry inside => ?_).trans (List.map_id more)
          exact if_neg (others entry inside)
        rw [if_pos same, if_pos same, kept, same]
      · have inside : key ∈ more.map (·.1) := by simpa [Ne.symm same] using member
        rw [if_neg same, if_neg same, ih apart.2 inside]

theorem insert_self {t : Table β} {key : Text} {value : β} (found : t.get? key = some value) :
    t.insert key value = t := by
  suffices ∀ l : List (Text × β), findIn key l = some value → insertIn key value l = l from
    congrArg Table.mk (this t.entries found)
  intro l
  induction l with
  | nil => simp [findIn]
  | cons entry more ih =>
      obtain ⟨k, v⟩ := entry
      intro there
      rw [findIn] at there
      by_cases same : k = key
      · rw [if_pos same] at there
        rw [insertIn, if_pos same, Option.some.inj there]
      · rw [if_neg same] at there
        rw [insertIn, if_neg same, ih there]

theorem entries_ofList {pairs : List (Text × β)} (distinct : (pairs.map (·.1)).Nodup) :
    (ofList pairs).entries = pairs := by
  suffices ∀ (l : List (Text × β)) (t : Table β), (t.keys ++ l.map (·.1)).Nodup →
      (l.foldl (fun t (key, value) => t.insert key value) t).entries = t.entries ++ l from
    (this pairs {} distinct).trans (List.nil_append _)
  intro l
  induction l with
  | nil => intro t _; exact (List.append_nil _).symm
  | cons entry more ih =>
      obtain ⟨key, value⟩ := entry
      intro t apart
      have fresh : key ∉ t.keys := fun known =>
        (List.nodup_append.mp apart).2.2 key known key List.mem_cons_self rfl
      simp only [List.foldl_cons, insert_of_not_mem t fresh]
      rw [ih]
      · exact List.append_assoc _ _ _
      · simpa [keys] using apart

theorem mem_entries_iff {t : Table β} (distinct : t.keys.Nodup) {key : Text} {value : β} :
    (key, value) ∈ t.entries ↔ t.get? key = some value :=
  ⟨get?_of_mem distinct, fun found => List.mem_of_getElem? (t.getElem?_idxOf found)⟩

theorem extract_eq (t : Table β) (key : Text) : t.extract key = (t.get? key, t.remove key) := by
  suffices ∀ l : List (Text × β), (extract ⟨l⟩ key) = (findIn key l, ⟨removeIn key l⟩) from
    this t.entries
  intro l
  induction l with
  | nil => rfl
  | cons entry more ih =>
      obtain ⟨k, v⟩ := entry
      rw [extract, List.findIdx?_cons, findIn, removeIn]
      by_cases same : k = key
      · simp [same]
      · rw [extract] at ih
        simp only [same, decide_false, Bool.false_eq_true, if_false]
        cases found : more.findIdx? (·.1 = key) with
        | none =>
            simp only [found, Prod.mk.injEq, mk.injEq] at ih
            rw [Option.map_none, ← ih.1, ← ih.2]
        | some place =>
            simp only [found, Prod.mk.injEq, mk.injEq] at ih
            rw [Option.map_some, ← ih.1, ← ih.2]
            rfl

theorem entries_remove {t : Table β} (distinct : t.keys.Nodup) (key : Text) :
    (t.remove key).entries = t.entries.filter (·.1 ≠ key) := by
  suffices ∀ l : List (Text × β), (l.map (·.1)).Nodup →
      removeIn key l = l.filter (·.1 ≠ key) from this t.entries distinct
  intro l
  induction l with
  | nil => intro _; rfl
  | cons entry more ih =>
      obtain ⟨k, v⟩ := entry
      intro apart
      rw [List.map_cons, List.nodup_cons] at apart
      rw [removeIn, List.filter_cons]
      by_cases same : k = key
      · have others : ∀ entry ∈ more, decide (entry.1 ≠ key) = true := by
          intro entry inside
          have listed : entry.1 ∈ more.map (·.1) := List.mem_map_of_mem inside
          exact decide_eq_true fun again => apart.1 (by rwa [same, ← again])
        rw [if_pos same, if_neg (by simp [same]), List.filter_eq_self.mpr others]
      · rw [if_neg same, if_pos (by simp [same]), ih apart.2]

theorem keys_remove {t : Table β} (distinct : t.keys.Nodup) (key : Text) :
    (t.remove key).keys = t.keys.filter (· ≠ key) := by
  rw [keys, keys, entries_remove distinct, List.filter_map]
  rfl

theorem nodup_keys_remove {t : Table β} (distinct : t.keys.Nodup) (key : Text) :
    (t.remove key).keys.Nodup := by
  rw [keys_remove distinct]
  exact distinct.filter _

theorem get?_remove {t : Table β} (distinct : t.keys.Nodup) (key other : Text) :
    (t.remove key).get? other = if key = other then none else t.get? other := by
  apply Option.ext
  intro value
  rw [← mem_entries_iff (nodup_keys_remove distinct key), entries_remove distinct]
  by_cases same : key = other
  · simp [same]
  · simp [Ne.symm same, same, mem_entries_iff distinct]

end Table

end LiveTemplate
