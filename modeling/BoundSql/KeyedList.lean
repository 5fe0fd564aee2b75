/-!
# Keyed lists

A list of values under distinct text keys, in the order in which the keys
were first inserted. Inserting under a key that is already there replaces the
value and keeps the place.
-/

namespace BoundSql

/-- Entries with one key replaced in place, or appended if the key is new. -/
def insertEntry {β : Type} (key : String) (value : β) : List (String × β) → List (String × β)
  | [] => [(key, value)]
  | entry :: rest =>
    if entry.1 = key then (key, value) :: rest else entry :: insertEntry key value rest

/-- Entering a value keeps the row of keys, or adds a new key at its end. -/
theorem map_fst_insertEntry {β : Type} (key : String) (value : β) (entries : List (String × β)) :
    (insertEntry key value entries).map Prod.fst
      = if key ∈ entries.map Prod.fst then entries.map Prod.fst
        else entries.map Prod.fst ++ [key] := by
  induction entries with
  | nil => simp [insertEntry]
  | cons entry rest ih =>
    by_cases h : entry.1 = key
    · simp [insertEntry, h]
    · have h' : ¬ key = entry.1 := fun e => h e.symm
      simp only [insertEntry, h, ↓reduceIte, List.map_cons, ih, List.mem_cons, h', false_or]
      split <;> simp

/-- The value of the entry with a key. -/
def lookupEntry {β : Type} (key : String) (entries : List (String × β)) : Option β :=
  (entries.find? fun entry => entry.1 == key).map Prod.snd

/-- The value that was entered is found under its key, and under any other key what was there. -/
theorem lookupEntry_insertEntry {β : Type} (key key' : String) (value : β)
    (entries : List (String × β)) :
    lookupEntry key' (insertEntry key value entries)
      = if key = key' then some value else lookupEntry key' entries := by
  induction entries with
  | nil => by_cases h : key = key' <;> simp [insertEntry, lookupEntry, h]
  | cons entry rest ih =>
    simp only [lookupEntry] at ih ⊢
    by_cases h : entry.1 = key
    · by_cases h' : key = key' <;> simp [insertEntry, h, h']
    · by_cases h' : entry.1 = key'
      · subst h'
        simp [insertEntry, h, Ne.symm h]
      · simp [insertEntry, h, h', ih]

/-- Values under distinct keys, in the order of first insertion. -/
structure KeyedList (β : Type) where
  entries : List (String × β)
  nodup_keys : (entries.map Prod.fst).Nodup
  deriving DecidableEq

namespace KeyedList

variable {β : Type}

/-- No entries. -/
def empty : KeyedList β := ⟨[], by simp⟩

instance : Inhabited (KeyedList β) := ⟨empty⟩

instance : EmptyCollection (KeyedList β) := ⟨empty⟩

/-- The keys in order. -/
def keys (xs : KeyedList β) : List String := xs.entries.map Prod.fst

/-- The values in the order of their keys. -/
def values (xs : KeyedList β) : List β := xs.entries.map Prod.snd

/-- The number of keys. -/
def size (xs : KeyedList β) : Nat := xs.entries.length

/-- Whether there is no entry. -/
def isEmpty (xs : KeyedList β) : Bool := xs.entries.isEmpty

/-- The value under a key. -/
def get? (xs : KeyedList β) (key : String) : Option β :=
  lookupEntry key xs.entries

/-- Puts a value under a key, in the place of the key's old value if it has one. -/
def insert (xs : KeyedList β) (key : String) (value : β) : KeyedList β where
  entries := insertEntry key value xs.entries
  nodup_keys := by
    rw [map_fst_insertEntry]
    split
    · exact xs.nodup_keys
    · next h => exact List.nodup_append.2 ⟨xs.nodup_keys, by simp, by
        intro a ha b hb
        rw [List.mem_singleton] at hb
        rintro rfl
        exact h (hb ▸ ha)⟩

/-- Inserts entries one after the other. -/
def insertAll (xs : KeyedList β) (entries : List (String × β)) : KeyedList β :=
  entries.foldl (fun xs entry => xs.insert entry.1 entry.2) xs

/-- The keyed list of entries, the last of which counts for a repeated key. -/
def ofEntries (entries : List (String × β)) : KeyedList β :=
  empty.insertAll entries

/-- A key keeps its place, and a new key comes last. -/
theorem keys_insert (xs : KeyedList β) (key : String) (value : β) :
    (xs.insert key value).keys = if key ∈ xs.keys then xs.keys else xs.keys ++ [key] :=
  map_fst_insertEntry key value xs.entries

/-- Looking up finds the value inserted last under the key. -/
theorem get?_insert (xs : KeyedList β) (key key' : String) (value : β) :
    (xs.insert key value).get? key' = if key = key' then some value else xs.get? key' :=
  lookupEntry_insertEntry key key' value xs.entries

end KeyedList

end BoundSql
