import BoundSql.Proofs.Naming

/-!
# Reading placeholders back

`scan` reads a text from left to right and takes note of every colon together
with the longest run of word characters after it. It knows nothing of how the
text was put together.

A text `Shows` some names when a reader finds exactly these in it, whatever
stands after the text, as long as that does not go on with a word character.
It `Trails` if it does not begin with a word character either, so that it can
be written after any other. Texts without a colon show nothing, and what texts
show adds up:

> `Shows.append`: a text and one that trails it show the names of both.
-/

namespace BoundSql.Placeholder

/-- Every colon with the longest run of word characters after it, from left to right. -/
def scan : List Char → List String
  | [] => []
  | c :: rest =>
    if c = ':' then String.ofList (':' :: rest.takeWhile isWordChar) :: scan rest
    else scan rest

/-- There is no colon in a text. -/
def Silent (text : String) : Prop := ':' ∉ text.toList

/-- Characters that do not begin with a word character. -/
def Fenced (cs : List Char) : Prop := ∀ c ∈ cs.head?, isWordChar c = false

/-- A reader of the text finds the names, and then what comes after the text. -/
def Shows (text : String) (names : List String) : Prop :=
  ∀ rest, Fenced rest → scan (text.toList ++ rest) = names ++ scan rest

/-- A text that shows names and leaves those before it as they are. -/
structure Trails (text : String) (names : List String) : Prop where
  shows : Shows text names
  fenced : Fenced text.toList

/-- A text that keeps what stands before it from what stands after it. -/
def Separates (text : String) : Prop :=
  Silent text ∧ ∃ c ∈ text.toList.head?, isWordChar c = false

instance (text : String) : Decidable (Silent text) :=
  inferInstanceAs (Decidable (¬ _))

instance (text : String) : Decidable (Separates text) :=
  match h : text.toList.head? with
  | none => .isFalse fun ⟨_, c, hc, _⟩ => by rw [h] at hc; cases hc
  | some c =>
    decidable_of_iff (Silent text ∧ isWordChar c = false) (by simp [Separates, h])

/-! ## Fences -/

/-- Nothing continues a name at the end of a text. -/
theorem fenced_nil : Fenced [] := by
  intro c hc
  cases hc

/-- A name ends before any character that is no word character. -/
theorem fenced_cons {c : Char} {rest : List Char} (h : isWordChar c = false) :
    Fenced (c :: rest) := by
  intro d hd
  rw [List.head?_cons, Option.mem_some] at hd
  exact hd ▸ h

theorem Fenced.append {first second : List Char} (hfirst : Fenced first)
    (hsecond : Fenced second) : Fenced (first ++ second) := by
  cases first with
  | nil => exact hsecond
  | cons c rest => exact fenced_cons (hfirst c rfl)

/-- Whatever comes after it, a separator is not taken for the rest of a name. -/
theorem Separates.fenced_append {separator : String} (h : Separates separator) (text : String) :
    Fenced (separator ++ text).toList := by
  obtain ⟨-, c, hc, hword⟩ := h
  obtain ⟨rest, hrest⟩ := List.head?_eq_some_iff.mp hc
  rw [String.toList_append, hrest]
  exact fenced_cons hword

/-! ## Silent texts -/

/-- A reader finds nothing in a silent text and goes on behind it. -/
theorem scan_append_of_silent {cs rest : List Char} (h : ':' ∉ cs) :
    scan (cs ++ rest) = scan rest := by
  induction cs with
  | nil => rfl
  | cons c cs ih =>
    rw [List.mem_cons, not_or] at h
    rw [List.cons_append, scan, if_neg (Ne.symm h.1)]
    exact ih h.2

theorem Silent.append {first second : String} (hfirst : Silent first) (hsecond : Silent second) :
    Silent (first ++ second) := by
  unfold Silent
  rw [String.toList_append, List.mem_append, not_or]
  exact ⟨hfirst, hsecond⟩

/-- A character of joined texts is from the separator or from one of the texts. -/
theorem mem_intercalate {separator : String} {c : Char} :
    ∀ {texts : List String}, c ∈ (separator.intercalate texts).toList →
      c ∈ separator.toList ∨ ∃ text ∈ texts, c ∈ text.toList := by
  intro texts
  induction texts with
  | nil =>
    intro hc
    rw [String.intercalate_nil] at hc
    cases hc
  | cons text rest ih =>
    intro hc
    cases rest with
    | nil =>
      rw [String.intercalate_singleton] at hc
      exact Or.inr ⟨text, List.mem_cons_self, hc⟩
    | cons next rest =>
      rw [String.intercalate_cons_cons, String.toList_append, String.toList_append,
        List.mem_append, List.mem_append] at hc
      rcases hc with (hc | hc) | hc
      · exact Or.inr ⟨text, List.mem_cons_self, hc⟩
      · exact Or.inl hc
      · rcases ih hc with hc | ⟨other, hother, hc⟩
        · exact Or.inl hc
        · exact Or.inr ⟨other, List.mem_cons_of_mem _ hother, hc⟩

/-- Silent texts can be joined with silence between them. -/
theorem silent_intercalate {separator : String} (hseparator : Silent separator)
    {texts : List String} (htexts : ∀ text ∈ texts, Silent text) :
    Silent (separator.intercalate texts) := by
  intro hc
  rcases mem_intercalate hc with hc | ⟨text, htext, hc⟩
  · exact hseparator hc
  · exact htexts text htext hc

theorem silent_join {texts : List String} (htexts : ∀ text ∈ texts, Silent text) :
    Silent (String.join texts) := by
  intro hc
  rw [String.toList_join, List.mem_flatMap] at hc
  obtain ⟨text, htext, hc⟩ := hc
  exact htexts text htext hc

/-! ## What texts show -/

theorem Silent.shows {text : String} (h : Silent text) : Shows text [] := by
  intro rest _
  exact scan_append_of_silent h

/-- A name shows itself. -/
theorem IsName.shows {name : String} (h : IsName name) : Shows name [name] := by
  obtain ⟨word, hname, hword⟩ := h
  intro rest hrest
  -- The reader stops where the name ends, and there is no other colon on the way.
  have hrun : (word ++ rest).takeWhile isWordChar = word := by
    rw [List.takeWhile_append_of_pos hword]
    cases rest with
    | nil => rw [List.takeWhile_nil, List.append_nil]
    | cons c rest =>
      rw [List.takeWhile_cons_of_neg (by rw [hrest c rfl]; decide), List.append_nil]
  have hsilent : ':' ∉ word := by
    intro hmem
    exact absurd (hword ':' hmem) (by decide)
  rw [hname, List.cons_append, scan, if_pos rfl, hrun, scan_append_of_silent hsilent, ← hname,
    String.ofList_toList]
  rfl

/-- What is shown comes before what trails behind it. -/
theorem Shows.append {first second : String} {names names' : List String}
    (hfirst : Shows first names) (hsecond : Trails second names') :
    Shows (first ++ second) (names ++ names') := by
  intro rest hrest
  rw [String.toList_append, List.append_assoc, hfirst _ (hsecond.fenced.append hrest),
    hsecond.shows rest hrest, List.append_assoc]

/-- Nothing need be known of what stands after a silent text. -/
theorem Silent.append_shows {first second : String} {names : List String}
    (hfirst : Silent first) (hsecond : Shows second names) : Shows (first ++ second) names := by
  intro rest hrest
  rw [String.toList_append, List.append_assoc, scan_append_of_silent hfirst, hsecond rest hrest]

/-! ## Trailing texts -/

theorem trails_empty : Trails "" [] :=
  ⟨Silent.shows (by decide), fenced_nil⟩

theorem Trails.append {first second : String} {names names' : List String}
    (hfirst : Trails first names) (hsecond : Trails second names') :
    Trails (first ++ second) (names ++ names') := by
  refine ⟨hfirst.shows.append hsecond, ?_⟩
  rw [String.toList_append]
  exact hfirst.fenced.append hsecond.fenced

/-- Anything can be written after a separator. -/
theorem Separates.trails_append {separator text : String} {names : List String}
    (hseparator : Separates separator) (h : Shows text names) :
    Trails (separator ++ text) names :=
  ⟨hseparator.1.append_shows h, hseparator.fenced_append text⟩

/-- A separator alone shows nothing. -/
theorem Separates.trails {separator : String} (h : Separates separator) : Trails separator [] := by
  have htrails := h.trails_append trails_empty.shows
  rwa [String.append_empty] at htrails

/-- What is closed by a separator shows no more names. -/
theorem Shows.close {text separator : String} {names : List String} (h : Shows text names)
    (hseparator : Separates separator) : Shows (text ++ separator) names := by
  have hshows := h.append hseparator.trails
  rwa [List.append_nil] at hshows

theorem separates_blank : Separates " " := by decide

theorem separates_comma : Separates "," := by decide

theorem separates_close : Separates ")" := by decide

theorem separates_comma_blank : Separates ", " := by decide

theorem silent_open : Silent "(" := by decide

theorem silent_equals : Silent " = " := by decide

/-! ## Rows of texts -/

/-- Texts with a separator between them show the names of all of them in turn. -/
theorem shows_intercalate {α : Type} {separator : String} (hseparator : Separates separator)
    (write : α → String) (names : α → List String) :
    ∀ parts : List α, (∀ part ∈ parts, Shows (write part) (names part)) →
      Shows (separator.intercalate (parts.map write)) (parts.flatMap names) := by
  intro parts
  induction parts with
  | nil =>
    intro _
    rw [List.map_nil, String.intercalate_nil]
    exact trails_empty.shows
  | cons part rest ih =>
    intro hall
    obtain ⟨hpart, hrest⟩ := List.forall_mem_cons.mp hall
    cases rest with
    | nil =>
      rw [List.map_singleton, String.intercalate_singleton, List.flatMap_singleton]
      exact hpart
    | cons next rest =>
      rw [List.map_cons, List.map_cons, String.intercalate_cons_cons, ← List.map_cons,
        String.append_assoc, List.flatMap_cons]
      exact hpart.append (hseparator.trails_append (ih hrest))

/-- Names separated by commas show themselves. -/
theorem shows_names {names : List String} (h : ∀ name ∈ names, IsName name) :
    Shows (",".intercalate names) names := by
  have hshows := shows_intercalate separates_comma id (fun name => [name]) names
    fun name hname => (h name hname).shows
  rwa [List.map_id, List.flatMap_singleton'] at hshows

/-- Texts that trail each other show the names of all of them in turn. -/
theorem trails_join {α : Type} (write : α → String) (names : α → List String) :
    ∀ parts : List α, (∀ part ∈ parts, Trails (write part) (names part)) →
      Trails (String.join (parts.map write)) (parts.flatMap names) := by
  intro parts
  induction parts with
  | nil =>
    intro _
    rw [List.map_nil, String.join_nil]
    exact trails_empty
  | cons part rest ih =>
    intro hall
    obtain ⟨hpart, hrest⟩ := List.forall_mem_cons.mp hall
    rw [List.map_cons, String.join_cons, List.flatMap_cons]
    exact hpart.append (ih hrest)

/-- What a reader finds in a whole text. -/
theorem Shows.scan_eq {text : String} {names : List String} (h : Shows text names) :
    scan text.toList = names := by
  have hscan := h [] fenced_nil
  rwa [List.append_nil, scan, List.append_nil] at hscan

end BoundSql.Placeholder
