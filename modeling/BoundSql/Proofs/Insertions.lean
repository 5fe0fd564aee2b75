import BoundSql.KeyedList
import Mathlib.Data.List.Basic
import Mathlib.Data.List.Induction

/-!
# Runs of insertions

One insertion into a keyed list keeps the places of the keys that are there and
lets a new one come last, and under its own key it leaves its value. So a run of
them keeps the places as well, lets the new keys come in the order in which they
came up first, and leaves under each key the value that came last. Entries under
other keys are left alone, and to run it again is to change nothing, as no key is
new any more and each has its last value already.

All this is said of any list and any run, by induction on the run from its end.
A keyed list that is filled from the start is the run on the empty one.

> `KeyedList.keys_insertAll`, `KeyedList.get?_insertAll`: the keys that a run
> leaves, and what is found under them.
-/

namespace BoundSql

section Settled

variable {β : Type}

/-- The value that was put under a key last. -/
def lastUnder (history : List (String × β)) (key : String) : Option β :=
  lookupEntry key history.reverse

/-- What a run of insertions leaves: each key once, in the order in which the keys came up
first, with the value that was put under it last. -/
def settled (history : List (String × β)) : List (String × β) :=
  (history.map Prod.fst).eraseDups.filterMap fun key =>
    (lastUnder history key).map fun value => (key, value)

/-- The last entry of a history is the last under its key. -/
theorem lastUnder_concat (history : List (String × β)) (key other : String) (value : β) :
    lastUnder (history ++ [(key, value)]) other
      = if key = other then some value else lastUnder history other := by
  rw [lastUnder, lastUnder, List.reverse_concat]
  by_cases h : key = other <;> simp [lookupEntry, h]

/-- What was put under a key last stands behind all else that was put there. -/
theorem lastUnder_eq_some_iff {history : List (String × β)} {key : String} {value : β} :
    lastUnder history key = some value ↔
      ∃ front back, history = front ++ (key, value) :: back ∧ ∀ entry ∈ back, entry.1 ≠ key := by
  constructor
  · intro h
    obtain ⟨entry, hfound, rfl⟩ := Option.map_eq_some_iff.mp h
    obtain ⟨hkey, back, front, hsplit, hback⟩ := List.find?_eq_some_iff_append.mp hfound
    refine ⟨front.reverse, back.reverse, ?_, fun other hother => ?_⟩
    · rw [← List.reverse_reverse history, hsplit, List.reverse_append, List.reverse_cons,
        List.append_assoc, ← beq_iff_eq.mp hkey]
      rfl
    · simpa using hback other (List.mem_reverse.mp hother)
  · intro h
    obtain ⟨front, back, rfl, hback⟩ := h
    -- The entries behind are taken off from the end, since there the look-up begins.
    induction back using List.reverseRecOn with
    | nil => rw [lastUnder_concat, if_pos rfl]
    | append_singleton back entry ih =>
      obtain ⟨hrest, hentry⟩ := List.forall_mem_append.mp hback
      rw [← List.cons_append, ← List.append_assoc, lastUnder_concat,
        if_neg (hentry entry List.mem_cons_self)]
      exact ih hrest

/-- A key that comes last is new, or it stands further in front already. -/
theorem eraseDups_concat (keys : List String) (key : String) :
    (keys ++ [key]).eraseDups = if key ∈ keys then keys.eraseDups else keys.eraseDups ++ [key] := by
  rw [List.eraseDups_append]
  by_cases h : key ∈ keys <;> simp [List.removeAll, List.eraseDups_cons, h]

/-- Values can be changed before or after the last of them is looked up. -/
theorem lastUnder_map {γ : Type} (make : β → γ) (history : List (String × β)) (key : String) :
    lastUnder (history.map fun entry => (entry.1, make entry.2)) key
      = (lastUnder history key).map make := by
  rw [lastUnder, lastUnder, lookupEntry, lookupEntry, ← List.map_reverse, List.find?_map,
    Option.map_map, Option.map_map]
  rfl

/-- What is done to all values of a run is done to those that are left. -/
theorem settled_map {γ : Type} (make : β → γ) (history : List (String × β)) :
    settled (history.map fun entry => (entry.1, make entry.2))
      = (settled history).map fun entry => (entry.1, make entry.2) := by
  rw [settled, settled, List.map_map, List.map_filterMap]
  refine List.filterMap_congr fun key _ => ?_
  rw [lastUnder_map, Option.map_map, Option.map_map]
  rfl

/-- The first key that comes up is left first, with its last value. -/
theorem exists_settled_cons (entry : String × β) (history : List (String × β)) :
    ∃ value others, lastUnder (entry :: history) entry.1 = some value ∧
      settled (entry :: history) = (entry.1, value) :: others := by
  have hsome : (lastUnder (entry :: history) entry.1).isSome = true := by
    simp [lastUnder, lookupEntry]
  obtain ⟨value, hvalue⟩ := Option.isSome_iff_exists.mp hsome
  have hcons : ∃ others, settled (entry :: history) = (entry.1, value) :: others := by
    rw [settled, List.map_cons, List.eraseDups_cons, List.filterMap_cons, hvalue]
    exact ⟨_, rfl⟩
  obtain ⟨others, hothers⟩ := hcons
  exact ⟨value, others, hvalue, hothers⟩

/-- Only a history without entries settles to nothing. -/
theorem settled_eq_nil_iff {history : List (String × β)} : settled history = [] ↔ history = [] := by
  cases history with
  | nil => exact iff_of_true rfl rfl
  | cons entry history =>
    obtain ⟨value, others, -, hsettled⟩ := exists_settled_cons entry history
    simp [hsettled]

end Settled

namespace KeyedList

variable {β : Type}

/-! ## Runs on any list -/

/-- One more entry is inserted after the others. -/
theorem insertAll_concat (xs : KeyedList β) (history : List (String × β)) (key : String)
    (value : β) :
    xs.insertAll (history ++ [(key, value)]) = (xs.insertAll history).insert key value := by
  rw [insertAll, List.foldl_append]
  rfl

/-- **The keys of a run** are those of the list, and then those that are new in the order in
which they came up first. -/
theorem keys_insertAll (xs : KeyedList β) (history : List (String × β)) :
    (xs.insertAll history).keys
      = xs.keys ++ (history.map Prod.fst).eraseDups.filter (· ∉ xs.keys) := by
  induction history using List.reverseRecOn with
  | nil => exact (List.append_nil xs.keys).symm
  | append_singleton history entry ih =>
    rw [insertAll_concat, keys_insert, ih, List.map_append, List.map_singleton, eraseDups_concat]
    -- An entry at the end adds its key if that is new to the list and to the run so far.
    by_cases hthere : entry.1 ∈ xs.keys
    · by_cases hold : entry.1 ∈ history.map Prod.fst <;> simp [hthere, hold]
    · by_cases hold : entry.1 ∈ history.map Prod.fst <;> simp [hthere, hold, List.filter_append]

/-- **Under a key** a run leaves what was put there last, if anything was. -/
theorem get?_insertAll (xs : KeyedList β) (history : List (String × β)) (key : String) :
    (xs.insertAll history).get? key = (lastUnder history key).or (xs.get? key) := by
  induction history using List.reverseRecOn with
  | nil => rfl
  | append_singleton history entry ih =>
    rw [insertAll_concat, get?_insert, ih, lastUnder_concat]
    split <;> rfl

/-- Entries that do not have the key stay as they are. -/
theorem filter_insertEntry {key : String} {keep : String → Bool} (hkey : keep key = false)
    (value : β) (entries : List (String × β)) :
    (insertEntry key value entries).filter (fun entry => keep entry.1)
      = entries.filter fun entry => keep entry.1 := by
  induction entries with
  | nil => simp [insertEntry, hkey]
  | cons entry rest ih =>
    by_cases hsame : entry.1 = key
    · simp [insertEntry, hsame, hkey]
    · rw [insertEntry, if_neg hsame, List.filter_cons, List.filter_cons, ih]

/-- **Entries under other keys** are left alone, and in their order. -/
theorem filter_insertAll (xs : KeyedList β) {keep : String → Bool} {history : List (String × β)}
    (hkeys : ∀ key ∈ history.map Prod.fst, keep key = false) :
    (xs.insertAll history).entries.filter (fun entry => keep entry.1)
      = xs.entries.filter fun entry => keep entry.1 := by
  induction history using List.reverseRecOn with
  | nil => rfl
  | append_singleton history entry ih =>
    rw [List.map_append, List.forall_mem_append] at hkeys
    obtain ⟨hhistory, hentry⟩ := hkeys
    rw [insertAll_concat, insert, filter_insertEntry (hentry entry.1 (by simp)), ih hhistory]

/-- A keyed list has no more to it than its keys and what is found under them. -/
theorem entries_eq (xs : KeyedList β) :
    xs.entries = xs.keys.filterMap fun key => (xs.get? key).map fun value => (key, value) := by
  obtain ⟨entries, hnodup⟩ := xs
  simp only [keys, get?]
  induction entries with
  | nil => rfl
  | cons entry rest ih =>
    obtain ⟨key, value⟩ := entry
    obtain ⟨hfresh, hrest⟩ := List.nodup_cons.mp hnodup
    have hothers : ∀ other ∈ rest.map Prod.fst,
        lookupEntry other ((key, value) :: rest) = lookupEntry other rest := by
      intro other hother
      have hne : key ≠ other := fun h => hfresh (h ▸ hother)
      simp [lookupEntry, hne]
    have hfirst : lookupEntry key ((key, value) :: rest) = some value := by
      simp [lookupEntry]
    rw [List.map_cons, List.filterMap_cons, hfirst, Option.map_some]
    refine congrArg ((key, value) :: ·) ((ih hrest).trans ?_)
    refine List.filterMap_congr fun other hother => ?_
    rw [hothers other hother]

/-- An entry is found under its key. -/
theorem get?_of_mem {xs : KeyedList β} {entry : String × β} (h : entry ∈ xs.entries) :
    xs.get? entry.1 = some entry.2 := by
  rw [entries_eq, List.mem_filterMap] at h
  obtain ⟨key, -, h⟩ := h
  obtain ⟨value, hvalue, rfl⟩ := Option.map_eq_some_iff.mp h
  exact hvalue

/-- A keyed list is told by its keys, in their order, and by what is found under each. -/
theorem ext_get? {xs ys : KeyedList β} (hkeys : xs.keys = ys.keys)
    (hget : ∀ key, xs.get? key = ys.get? key) : xs = ys := by
  have hentries : xs.entries = ys.entries := by
    rw [entries_eq, entries_eq, hkeys, funext hget]
  cases xs
  cases ys
  cases hentries
  rfl

/-- **A run again** changes nothing. -/
theorem insertAll_insertAll (xs : KeyedList β) (history : List (String × β)) :
    (xs.insertAll history).insertAll history = xs.insertAll history := by
  apply ext_get?
  -- After the first run there is no key left that a second one could add.
  · have hthere : ∀ key ∈ (history.map Prod.fst).eraseDups, key ∈ (xs.insertAll history).keys := by
      intro key hkey
      rw [keys_insertAll, List.mem_append, List.mem_filter, decide_eq_true_eq]
      by_cases hold : key ∈ xs.keys
      · exact .inl hold
      · exact .inr ⟨hkey, hold⟩
    rw [keys_insertAll (xs.insertAll history), List.filter_eq_nil_iff.mpr, List.append_nil]
    intro key hkey
    rw [decide_eq_true_eq]
    exact not_not_intro (hthere key hkey)
  · intro key
    rw [get?_insertAll, get?_insertAll]
    cases lastUnder history key <;> rfl

/-! ## Runs from the start -/

theorem ofEntries_concat (history : List (String × β)) (key : String) (value : β) :
    ofEntries (history ++ [(key, value)]) = (ofEntries history).insert key value :=
  insertAll_concat empty history key value

/-- The keys stand in the order in which they came first. -/
theorem keys_ofEntries (history : List (String × β)) :
    (ofEntries history).keys = (history.map Prod.fst).eraseDups := by
  have hnone : (history.map Prod.fst).eraseDups.filter (· ∉ (empty : KeyedList β).keys)
      = (history.map Prod.fst).eraseDups := List.filter_eq_self.mpr fun _ _ => rfl
  rw [ofEntries, keys_insertAll, hnone]
  rfl

/-- Under each key is what came last. -/
theorem get?_ofEntries (history : List (String × β)) (key : String) :
    (ofEntries history).get? key = lastUnder history key := by
  rw [ofEntries, get?_insertAll]
  exact Option.or_none

/-- **A run of insertions** leaves the last value under each key, in the place of the first. -/
theorem entries_ofEntries (history : List (String × β)) :
    (ofEntries history).entries = settled history := by
  rw [entries_eq, keys_ofEntries, settled]
  simp only [get?_ofEntries]

theorem insertEntry_of_not_mem {key : String} {entries : List (String × β)}
    (h : key ∉ entries.map Prod.fst) (value : β) :
    insertEntry key value entries = entries ++ [(key, value)] := by
  induction entries with
  | nil => rfl
  | cons entry rest ih =>
    obtain ⟨hne, hrest⟩ := not_or.mp (mt List.mem_cons.mpr h)
    rw [insertEntry, if_neg (Ne.symm hne), ih hrest, List.cons_append]

/-- A keyed list is left by the run of its own entries. -/
theorem ofEntries_entries (xs : KeyedList β) : ofEntries xs.entries = xs := by
  obtain ⟨entries, hnodup⟩ := xs
  -- Only the entries count, so the induction can take them off at their end.
  suffices h : (ofEntries entries).entries = entries by
    cases hrun : ofEntries entries
    simpa [hrun] using h
  induction entries using List.reverseRecOn with
  | nil => rfl
  | append_singleton entries entry ih =>
    rw [List.map_append, List.map_singleton] at hnodup
    obtain ⟨hrest, -, hdisjoint⟩ := List.nodup_append.mp hnodup
    have hfresh : entry.1 ∉ entries.map Prod.fst := fun h =>
      hdisjoint _ h _ List.mem_cons_self rfl
    rw [ofEntries_concat]
    show insertEntry entry.1 entry.2 (ofEntries entries).entries = entries ++ [entry]
    rw [ih hrest, insertEntry_of_not_mem hfresh]

end KeyedList

end BoundSql
