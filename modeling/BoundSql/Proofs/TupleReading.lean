import BoundSql.Proofs.Scanning

/-!
# Reading tuples back

`readTuples` reads what stands behind VALUES: tuples in parentheses with commas
between them. It goes from character to character and knows nothing of how the
text was put together. Inside a tuple every comma ends an entry, and a
parenthesis that opens there is not understood.

> `readTuples_enclosed`: bodies without parentheses that are written as tuples
> are read as their entries, and `entries_intercalate`: those are the entries
> that were joined, if none has a comma of its own. Both together are
> `readTuples_rows`.
-/

namespace BoundSql

/-- Where a reader of tuples stands: before one, in one with what it has seen of it, or
behind one. -/
inductive ReaderPlace where
  | before
  | inside (seen : List Char)
  | behind
  deriving DecidableEq, Repr

/-- A reader of tuples: those it has read, and where it stands. -/
structure TupleReader where
  tuples : List (List String)
  place : ReaderPlace
  deriving DecidableEq, Repr

/-- The entries of a text, which commas keep apart. -/
def entries (text : List Char) : List String :=
  (text.splitOn ',').map String.ofList

namespace TupleReader

/-- Reads one more character, if it can stand there. -/
def next? (reader : TupleReader) (c : Char) : Option TupleReader :=
  match reader.place with
  | .before => if c = '(' then some ⟨reader.tuples, .inside []⟩ else none
  | .inside seen =>
    if c = '(' then none
    else if c = ')' then some ⟨reader.tuples ++ [entries seen], .behind⟩
    else some ⟨reader.tuples, .inside (seen ++ [c])⟩
  | .behind => if c = ',' then some ⟨reader.tuples, .before⟩ else none

end TupleReader

/-- Reads tuples with commas between them, each as the list of its entries. -/
def readTuples (text : String) : Option (List (List String)) :=
  match text.toList.foldlM TupleReader.next? ⟨[], .before⟩ with
  | some ⟨tuples, .behind⟩ => some tuples
  | _ => none

/-- A text between parentheses. -/
def enclosed (body : String) : String := "(" ++ body ++ ")"

/-- There is no parenthesis in a text. -/
def Unenclosed (text : String) : Prop := '(' ∉ text.toList ∧ ')' ∉ text.toList

instance (text : String) : Decidable (Unenclosed text) :=
  inferInstanceAs (Decidable (_ ∧ _))

/-- There is no comma and no parenthesis in a text, so it is one entry of a tuple. -/
def IsEntry (text : String) : Prop := ',' ∉ text.toList ∧ Unenclosed text

instance (text : String) : Decidable (IsEntry text) :=
  inferInstanceAs (Decidable (_ ∧ _))

namespace TupleReader

/-- A reader inside a tuple takes in a text without parentheses. -/
theorem foldlM_inside (tuples : List (List String)) : ∀ (cs seen : List Char),
    '(' ∉ cs → ')' ∉ cs →
      cs.foldlM next? ⟨tuples, .inside seen⟩ = some ⟨tuples, .inside (seen ++ cs)⟩ := by
  intro cs
  induction cs with
  | nil =>
    intro seen _ _
    rw [List.append_nil]
    rfl
  | cons c cs ih =>
    intro seen hopen hclose
    rw [List.mem_cons, not_or] at hopen hclose
    have hnext : next? ⟨tuples, .inside seen⟩ c = some ⟨tuples, .inside (seen ++ [c])⟩ := by
      unfold next?
      dsimp only
      rw [if_neg (Ne.symm hopen.1), if_neg (Ne.symm hclose.1)]
    rw [List.foldlM_cons, hnext]
    show cs.foldlM next? ⟨tuples, .inside (seen ++ [c])⟩ = _
    rw [ih (seen ++ [c]) hopen.2 hclose.2, List.append_assoc]
    rfl

/-- A reader before a tuple reads it to its end. -/
theorem foldlM_enclosed (tuples : List (List String)) {body : String} (h : Unenclosed body)
    (rest : List Char) :
    ((enclosed body).toList ++ rest).foldlM next? ⟨tuples, .before⟩
      = rest.foldlM next? ⟨tuples ++ [entries body.toList], .behind⟩ := by
  have htext : (enclosed body).toList ++ rest = '(' :: (body.toList ++ ')' :: rest) := by
    unfold enclosed
    rw [String.toList_append, String.toList_append, List.append_assoc, List.append_assoc]
    rfl
  rw [htext]
  show (body.toList ++ ')' :: rest).foldlM next? ⟨tuples, .inside []⟩ = _
  rw [List.foldlM_append, foldlM_inside tuples body.toList [] h.1 h.2]
  rfl

/-- A reader before a row of tuples reads them all, whatever it has read so far. -/
theorem foldlM_intercalate : ∀ (body : String) (bodies : List String) (tuples : List (List String)),
    (∀ text ∈ body :: bodies, Unenclosed text) →
      (",".intercalate ((body :: bodies).map enclosed)).toList.foldlM next? ⟨tuples, .before⟩
        = some ⟨tuples ++ (body :: bodies).map (entries ·.toList), .behind⟩ := by
  intro body bodies
  induction bodies generalizing body with
  | nil =>
    intro tuples h
    rw [List.map_singleton, String.intercalate_singleton, ← List.append_nil (enclosed body).toList,
      foldlM_enclosed tuples (h body List.mem_cons_self)]
    rfl
  | cons next bodies ih =>
    intro tuples h
    obtain ⟨hbody, hrest⟩ := List.forall_mem_cons.mp h
    rw [List.map_cons, List.map_cons, String.intercalate_cons_cons, ← List.map_cons,
      String.toList_append, String.toList_append, List.append_assoc, foldlM_enclosed tuples hbody]
    -- The comma takes the reader to the next tuple.
    show (",".intercalate ((next :: bodies).map enclosed)).toList.foldlM next?
      ⟨tuples ++ [entries body.toList], .before⟩ = _
    rw [ih next _ hrest, List.append_assoc]
    rfl

end TupleReader

/-- **Tuples are read back** as the entries of their bodies. -/
theorem readTuples_enclosed {bodies : List String} (hne : bodies ≠ [])
    (h : ∀ body ∈ bodies, Unenclosed body) :
    readTuples (",".intercalate (bodies.map enclosed))
      = some (bodies.map (entries ·.toList)) := by
  obtain ⟨body, rest, rfl⟩ := List.exists_cons_of_ne_nil hne
  unfold readTuples
  rw [TupleReader.foldlM_intercalate body rest [] h]
  rfl

/-- Entries without commas that were joined by commas are found again. -/
theorem entries_intercalate {cells : List String} (hne : cells ≠ [])
    (h : ∀ cell ∈ cells, ',' ∉ cell.toList) :
    entries (",".intercalate cells).toList = cells := by
  have hcells : ∀ cs ∈ cells.map String.toList, ',' ∉ cs := by
    intro cs hcs
    obtain ⟨cell, hcell, rfl⟩ := List.mem_map.mp hcs
    exact h cell hcell
  have hsplit := List.splitOn_intercalate ',' hcells (by simpa using hne)
  unfold entries
  rw [String.toList_intercalate]
  show (([','].intercalate (cells.map String.toList)).splitOn ',').map String.ofList = cells
  rw [hsplit, List.map_map]
  conv => rhs; rw [← List.map_id cells]
  exact List.map_congr_left fun cell _ => String.ofList_toList

/-- Commas between texts without parentheses add none. -/
theorem unenclosed_intercalate {texts : List String} (h : ∀ text ∈ texts, Unenclosed text) :
    Unenclosed (",".intercalate texts) := by
  constructor
  · intro hc
    rcases Placeholder.mem_intercalate hc with hc | ⟨text, htext, hc⟩
    · exact absurd hc (by decide)
    · exact (h text htext).1 hc
  · intro hc
    rcases Placeholder.mem_intercalate hc with hc | ⟨text, htext, hc⟩
    · exact absurd hc (by decide)
    · exact (h text htext).2 hc

/-- **Rows of entries are read back** from the tuples in which they are written. -/
theorem readTuples_rows {rows : List (List String)} (hne : rows ≠ [])
    (h : ∀ row ∈ rows, row ≠ [] ∧ ∀ entry ∈ row, IsEntry entry) :
    readTuples (",".intercalate (rows.map fun row => enclosed (",".intercalate row)))
      = some rows := by
  have hbodies : (rows.map fun row => enclosed (",".intercalate row))
      = (rows.map ",".intercalate).map enclosed := by
    rw [List.map_map]
    rfl
  rw [hbodies, readTuples_enclosed]
  · rw [List.map_map, Option.some.injEq]
    conv => rhs; rw [← List.map_id rows]
    exact List.map_congr_left fun row hrow =>
      entries_intercalate (h row hrow).1 fun entry hentry => ((h row hrow).2 entry hentry).1
  · exact mt List.map_eq_nil_iff.mp hne
  · intro body hbody
    obtain ⟨row, hrow, rfl⟩ := List.mem_map.mp hbody
    exact unenclosed_intercalate fun entry hentry => ((h row hrow).2 entry hentry).2

end BoundSql
