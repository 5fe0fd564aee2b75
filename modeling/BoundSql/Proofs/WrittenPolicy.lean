import BoundSql.Proofs.Confinement
import BoundSql.Proofs.TomlText

/-!
# Policies that are written down

A policy is written as a table `compiler` with a line for each setting that is
chosen. Which settings are chosen, and in which order their lines come, is up to
the writer, and so is whether the choice is sound together with the defaults of
the settings that are left out.

> `Policy.read_document`: a choice that is sound with its defaults is read back as
> it was made, and any other is refused. A line with another key, or with an operator
> that there is not, has the whole text refused, whatever comes after it.

What carries this is `setKeyed_eq_ok_iff`: settings are made exactly when their
lines are those of choices, no two for one setting.
-/

namespace BoundSql

/-- A comparison is read from its written form alone. -/
theorem Comparison.read_eq_ok_iff {text : String} {op : Comparison} :
    read text = .ok op ↔ op.sql = text := by
  unfold read
  constructor
  · intro h
    split at h
    · next hop =>
      cases h
      exact sql_of_ofSql? hop
    · cases h
  · intro h
    rw [← h, ofSql?_sql]

theorem Connective.read_eq_ok_iff {text : String} {op : Connective} :
    read text = .ok op ↔ op.sql = text := by
  unfold read
  constructor
  · intro h
    split at h
    · next hop =>
      cases h
      exact sql_of_ofSql? hop
    · cases h
  · intro h
    rw [← h, ofSql?_sql]

namespace Policy

open Toml (Line Written)

/-! ## Choices -/

/-- A setting with what is chosen for it. -/
inductive Chosen where
  | comparison (op : Comparison)
  | connective (op : Connective)
  | allowedComparisons (ops : List Comparison)
  | allowedConnectives (ops : List Connective)

namespace Chosen

/-- The setting of a choice. -/
def setting : Chosen → Setting
  | comparison _ => .comparison
  | connective _ => .connective
  | allowedComparisons _ => .allowedComparisons
  | allowedConnectives _ => .allowedConnectives

/-- What is written for a choice: the text of an operator, or the texts of some. -/
def given : Chosen → Written
  | comparison op => .one op.sql
  | connective op => .one op.sql
  | allowedComparisons ops => .many (ops.map Comparison.sql)
  | allowedConnectives ops => .many (ops.map Connective.sql)

/-- The line of a choice. -/
def line (chosen : Chosen) : Line := ⟨chosen.setting.key, chosen.given⟩

/-- A policy with a choice in place of what it had. -/
def apply (policy : Policy) : Chosen → Policy
  | comparison op => { policy with comparison := op }
  | connective op => { policy with connective := op }
  | allowedComparisons ops => { policy with allowedComparisons := ops }
  | allowedConnectives ops => { policy with allowedConnectives := ops }

/-- Choices for different settings do not get in the way of each other. -/
theorem apply_comm (policy : Policy) {first second : Chosen} (h : first.setting ≠ second.setting) :
    apply (apply policy first) second = apply (apply policy second) first := by
  cases first <;> cases second <;> first | rfl | exact absurd rfl h

end Chosen

/-- What is chosen for each setting, if anything is. -/
structure Choice where
  comparison : Option Comparison := none
  connective : Option Connective := none
  allowedComparisons : Option (List Comparison) := none
  allowedConnectives : Option (List Connective) := none

namespace Choice

/-- The choices that were made. -/
def chosen (choice : Choice) : List Chosen :=
  choice.comparison.toList.map .comparison ++ choice.connective.toList.map .connective
    ++ choice.allowedComparisons.toList.map .allowedComparisons
    ++ choice.allowedConnectives.toList.map .allowedConnectives

/-- The policy of a choice: what was chosen, and the default of everything else. -/
def policy (choice : Choice) : Policy where
  comparison := choice.comparison.getD .equal
  connective := choice.connective.getD .and
  allowedComparisons := choice.allowedComparisons.getD Comparison.all
  allowedConnectives := choice.allowedConnectives.getD Connective.all

/-- No setting is chosen twice. -/
theorem nodup_setting (choice : Choice) : (choice.chosen.map Chosen.setting).Nodup := by
  obtain ⟨_ | _, _ | _, _ | _, _ | _⟩ := choice <;> simp [chosen, Chosen.setting]

/-- A policy is made by what was chosen for it, one setting after the other. -/
theorem foldl_chosen (choice : Choice) : choice.chosen.foldl Chosen.apply {} = choice.policy := by
  obtain ⟨_ | _, _ | _, _ | _, _ | _⟩ := choice <;> rfl

/-- The policy does not depend on the order of the choices. -/
theorem foldl_of_perm {choice : Choice} {order : List Chosen} (h : order.Perm choice.chosen) :
    order.foldl Chosen.apply {} = choice.policy := by
  have hnodup := (h.map Chosen.setting).nodup_iff.mpr choice.nodup_setting
  rw [← foldl_chosen]
  refine h.foldl_eq' (fun first hfirst second hsecond policy => ?_) _
  -- Two choices for one setting are the same choice; any others commute.
  by_cases hsame : first.setting = second.setting
  · rw [List.inj_on_of_nodup_map hnodup hfirst hsecond hsame]
  · exact Chosen.apply_comm policy hsame

end Choice

/-! ## Making settings -/

/-- The key of a line with the value that is given to it. -/
def entryOf (line : Line) : String × Toml.Value := (line.key, line.given.value)

theorem mapError_eq_ok_iff {ε δ α : Type} {f : ε → δ} {result : Except ε α} {x : α} :
    result.mapError f = .ok x ↔ result = .ok x := by
  cases result with
  | ok value => exact Iff.of_eq (by rw [Except.mapError, Except.ok.injEq, Except.ok.injEq])
  | error fault => exact iff_of_false nofun nofun

theorem comparisonOf_string {text : String} {op : Comparison} :
    comparisonOf (.string text) = .ok op ↔ op.sql = text :=
  mapError_eq_ok_iff.trans Comparison.read_eq_ok_iff

theorem connectiveOf_string {text : String} {op : Connective} :
    connectiveOf (.string text) = .ok op ↔ op.sql = text :=
  mapError_eq_ok_iff.trans Connective.read_eq_ok_iff

/-- One operator is given by its text. -/
theorem comparisonOf_eq_ok_iff {given : Written} {op : Comparison} :
    comparisonOf given.value = .ok op ↔ Written.one op.sql = given := by
  cases given with
  | one text => rw [Written.value, comparisonOf_string, Written.one.injEq]
  | many texts => exact iff_of_false nofun nofun

theorem connectiveOf_eq_ok_iff {given : Written} {op : Connective} :
    connectiveOf given.value = .ok op ↔ Written.one op.sql = given := by
  cases given with
  | one text => rw [Written.value, connectiveOf_string, Written.one.injEq]
  | many texts => exact iff_of_false nofun nofun

/-- A list of operators is given by their texts, in their order. -/
theorem itemsOf_eq_ok_iff {α : Type} {item : Toml.Value → Except Misfit α} {sql : α → String}
    (h : ∀ text op, item (.string text) = .ok op ↔ sql op = text) {given : Written}
    {ops : List α} :
    itemsOf item given.value = .ok ops ↔ Written.many (ops.map sql) = given := by
  cases given with
  | one text => exact iff_of_false nofun nofun
  | many texts =>
    have hitem : ∀ text op, item (.string text) = .ok op ↔ text = sql op :=
      fun text op => (h text op).trans eq_comm
    show (texts.map Toml.Value.string).mapM item = .ok ops ↔ _
    rw [mapM_eq_ok_iff, List.forall₂_map_left_iff, Written.many.injEq, eq_comm]
    simp only [hitem]
    rw [← List.forall₂_map_right_iff, List.forall₂_eq_eq_eq]

/-- What is read from what is given and put into a policy comes from the choices for one
setting, if those are what can be read there. -/
theorem bind_eq_ok_iff_chosen {α : Type} (reader : Toml.Value → Except Misfit α)
    (choose : α → Chosen) {setting : Setting} {given : Written} {policy next : Policy}
    (hreader : ∀ x, reader given.value = .ok x ↔ (choose x).given = given)
    (hchoose : ∀ chosen : Chosen, chosen.setting = setting ↔ ∃ x, choose x = chosen) :
    ((reader given.value).bind fun x => .ok ((choose x).apply policy)) = .ok next ↔
      ∃ chosen : Chosen, chosen.setting = setting ∧ chosen.given = given ∧
        chosen.apply policy = next := by
  rw [bind_eq_ok_iff]
  constructor
  · intro h
    obtain ⟨x, hx, hnext⟩ := h
    exact ⟨choose x, (hchoose _).mpr ⟨x, rfl⟩, (hreader x).mp hx, Except.ok.inj hnext⟩
  · intro h
    obtain ⟨chosen, hsetting, hgiven, hnext⟩ := h
    obtain ⟨x, rfl⟩ := (hchoose chosen).mp hsetting
    exact ⟨x, (hreader x).mpr hgiven, congrArg Except.ok hnext⟩

/-- A setting is made of what is given exactly when that is a choice for it. -/
theorem set_eq_ok_iff {policy next : Policy} {setting : Setting} {given : Written} :
    policy.set setting given.value = .ok next ↔
      ∃ chosen : Chosen, chosen.setting = setting ∧ chosen.given = given ∧
        chosen.apply policy = next := by
  cases setting with
  | comparison =>
    refine bind_eq_ok_iff_chosen comparisonOf .comparison (fun _ => comparisonOf_eq_ok_iff)
      fun chosen => ?_
    cases chosen <;> simp [Chosen.setting]
  | connective =>
    refine bind_eq_ok_iff_chosen connectiveOf .connective (fun _ => connectiveOf_eq_ok_iff)
      fun chosen => ?_
    cases chosen <;> simp [Chosen.setting]
  | allowedComparisons =>
    refine bind_eq_ok_iff_chosen (itemsOf comparisonOf) .allowedComparisons
      (fun _ => itemsOf_eq_ok_iff fun _ _ => comparisonOf_string) fun chosen => ?_
    cases chosen <;> simp [Chosen.setting]
  | allowedConnectives =>
    refine bind_eq_ok_iff_chosen (itemsOf connectiveOf) .allowedConnectives
      (fun _ => itemsOf_eq_ok_iff fun _ _ => connectiveOf_string) fun chosen => ?_
    cases chosen <;> simp [Chosen.setting]

/-- A key is that of one setting at most. -/
theorem find?_key_eq_some_iff {key : String} {setting : Setting} :
    (Setting.all.find? fun setting => setting.key == key) = some setting ↔ setting.key = key := by
  constructor
  · intro h
    simpa using List.find?_some h
  · intro h
    subst h
    cases setting <;> rfl

/-- Settings are told apart by their keys. -/
theorem eq_of_key {first second : Setting} (h : first.key = second.key) : first = second :=
  Option.some.inj ((find?_key_eq_some_iff.mpr h).symm.trans (find?_key_eq_some_iff.mpr rfl))

/-- Settings are made one by one, each of them of a key that is known and new. -/
theorem setKeyed_cons_eq_ok_iff {seen : List Setting} {policy result : Policy} {key : String}
    {value : Toml.Value} {rest : List (String × Toml.Value)} :
    setKeyed seen policy ((key, value) :: rest) = .ok result ↔
      ∃ setting next, setting.key = key ∧ setting ∉ seen ∧ policy.set setting value = .ok next ∧
        setKeyed (setting :: seen) next rest = .ok result := by
  rw [setKeyed]
  cases hfind : Setting.all.find? fun setting => setting.key == key with
  | none =>
    refine iff_of_false nofun fun h => ?_
    obtain ⟨setting, _, hkey, -⟩ := h
    rw [find?_key_eq_some_iff.mpr hkey] at hfind
    cases hfind
  | some setting =>
    have hkey := find?_key_eq_some_iff.mp hfind
    -- The look-up finds the one setting of that key, so the other side can speak of no other.
    have honly : ∀ other : Setting, other.key = key → other = setting :=
      fun other hother => eq_of_key (hother.trans hkey.symm)
    dsimp only
    by_cases hseen : setting ∈ seen
    · rw [if_pos hseen]
      refine iff_of_false nofun fun h => ?_
      obtain ⟨other, _, hother, hnew, -⟩ := h
      exact hnew (honly other hother ▸ hseen)
    · rw [if_neg hseen]
      refine bind_eq_ok_iff.trans ?_
      constructor
      · intro h
        obtain ⟨next, hset, hrest⟩ := h
        exact ⟨setting, next, hkey, hseen, hset, hrest⟩
      · intro h
        obtain ⟨other, next, hother, -, hset, hrest⟩ := h
        obtain rfl := honly other hother
        exact ⟨next, hset, hrest⟩

/-- **Settings are made of choices.** Lines are taken exactly when they are those of choices
for settings that are new and all different, and these are made in the order of the lines. -/
theorem setKeyed_eq_ok_iff {result : Policy} : ∀ {lines : List Line} {seen : List Setting}
    {policy : Policy},
    setKeyed seen policy (lines.map entryOf) = .ok result ↔
      ∃ order : List Chosen, lines = order.map Chosen.line ∧
        (order.map Chosen.setting).Nodup ∧ (∀ chosen ∈ order, chosen.setting ∉ seen) ∧
        order.foldl Chosen.apply policy = result := by
  intro lines
  induction lines with
  | nil =>
    intro seen policy
    constructor
    · intro h
      exact ⟨[], rfl, List.nodup_nil, nofun, Except.ok.inj h⟩
    · intro h
      obtain ⟨order, horder, -, -, hresult⟩ := h
      obtain rfl := List.map_eq_nil_iff.mp horder.symm
      exact congrArg Except.ok hresult
  | cons line lines ih =>
    intro seen policy
    rw [List.map_cons, entryOf, setKeyed_cons_eq_ok_iff]
    constructor
    · intro h
      obtain ⟨setting, next, hkey, hseen, hset, hrest⟩ := h
      obtain ⟨chosen, rfl, hgiven, rfl⟩ := set_eq_ok_iff.mp hset
      obtain ⟨order, rfl, hnodup, hnew, hresult⟩ := ih.mp hrest
      have hline : line = chosen.line := by
        rw [Chosen.line, hkey, hgiven]
      -- The run behind this line has seen its setting, so none of its choices is for that.
      have hothers : chosen.setting ∉ order.map Chosen.setting := by
        intro hmem
        obtain ⟨other, hother, hsame⟩ := List.mem_map.mp hmem
        exact hnew other hother (hsame ▸ List.mem_cons_self)
      refine ⟨chosen :: order, ?_, ?_, ?_, hresult⟩
      · rw [hline, List.map_cons]
      · rw [List.map_cons]
        exact List.nodup_cons.mpr ⟨hothers, hnodup⟩
      · refine List.forall_mem_cons.mpr ⟨hseen, fun other hother hmem => ?_⟩
        exact hnew other hother (List.mem_cons_of_mem _ hmem)
    · intro h
      obtain ⟨order, horder, hnodup, hnew, hresult⟩ := h
      obtain ⟨chosen, order, rfl, hline, hlines⟩ := List.map_eq_cons_iff.mp horder.symm
      rw [List.map_cons, List.nodup_cons] at hnodup
      obtain ⟨hseen, hnew⟩ := List.forall_mem_cons.mp hnew
      refine ⟨chosen.setting, chosen.apply policy, ?_, hseen, ?_, ?_⟩
      · rw [← hline]
        rfl
      · exact set_eq_ok_iff.mpr ⟨chosen, rfl, congrArg Line.given hline, rfl⟩
      · refine ih.mpr ⟨order, hlines.symm, hnodup.2, fun other hother hmem => ?_, hresult⟩
        rcases List.mem_cons.mp hmem with hsame | hmem
        · exact hnodup.1 (hsame ▸ List.mem_map_of_mem hother)
        · exact hnew other hother hmem

/-- What was taken as a setting has a known key, and can be set. -/
theorem exists_set_of_setKeyed {result : Policy} : ∀ {entries : List (String × Toml.Value)}
    {seen : List Setting} {policy : Policy}, setKeyed seen policy entries = .ok result →
      ∀ entry ∈ entries, ∃ (setting : Setting) (before after : Policy),
        setting.key = entry.1 ∧ before.set setting entry.2 = .ok after := by
  intro entries
  induction entries with
  | nil => exact fun _ => nofun
  | cons entry entries ih =>
    intro seen policy h
    obtain ⟨setting, next, hkey, -, hset, hrest⟩ := setKeyed_cons_eq_ok_iff.mp h
    exact List.forall_mem_cons.mpr ⟨⟨setting, policy, next, hkey, hset⟩, ih hrest⟩

/-! ## Documents -/

/-- The document of a policy, of the lines of its table. -/
def document (gap : Nat) (lines : List Line) : String :=
  Toml.tableText "compiler" gap lines

/-- A text is refused as a policy. -/
def Refuses (source : String) : Prop :=
  ∃ fault, read source = .error fault ∧ fault.code = .invalidPolicy

/-- A policy that is not sound is refused as such. -/
theorem code_unsoundness (policy : Policy) : policy.unsoundness.code = .invalidPolicy := by
  unfold unsoundness
  split <;> rfl

/-- Whatever is wrong with the text of a policy, it is refused under the same code. -/
theorem refuses_of_not_ok {source : String} (h : ∀ compiler, read source ≠ .ok compiler) :
    Refuses source := by
  unfold Refuses
  cases hread : read source with
  | ok compiler => exact absurd hread (h compiler)
  | error fault =>
    refine ⟨fault, rfl, ?_⟩
    -- There are two ways to be refused: the settings are not sound, or the text gives none.
    unfold read at hread
    split at hread
    · unfold check at hread
      split at hread
      · cases hread
      · cases hread
        exact code_unsoundness _
    · cases hread
      rfl

/-- The statements of lines are entries of the table. -/
theorem mapM_innerEntry (lines : List Line) (others : List Toml.Statement) :
    (lines.map Line.statement ++ others).mapM innerEntry
      = (others.mapM innerEntry).map (lines.map entryOf ++ ·) := by
  induction lines with
  | nil => exact Option.map_id'.symm
  | cons line lines ih =>
    rw [List.map_cons, List.cons_append, List.mapM_cons, ih]
    cases others.mapM innerEntry <;> rfl

/-- **A document with more behind it** is taken for the settings of its lines, and of what is
found there. -/
theorem ofToml_append (gap : Nat) (lines : List Line) (rest : String) :
    ∃ fuel, ofToml (document gap lines ++ rest)
      = match Toml.readStatements (fuel + 2) rest.toList with
        | none => .error .notToml
        | some others =>
          match others.mapM innerEntry with
          | none => .error .unexpectedKey
          | some entries => setKeyed [] {} (lines.map entryOf ++ entries) := by
  obtain ⟨fuel, hread⟩ := Toml.read_tableText "compiler" gap lines rest
  refine ⟨fuel, ?_⟩
  rw [ofToml, document, hread]
  cases Toml.readStatements (fuel + 2) rest.toList with
  | none => rfl
  | some others =>
    have hgiven : given? (.header ["compiler"] :: (lines.map Line.statement ++ others))
        = .keyed <$> (lines.map Line.statement ++ others).mapM innerEntry := rfl
    dsimp only [Option.map_some]
    rw [hgiven, mapM_innerEntry]
    cases others.mapM innerEntry <;> rfl

/-- A document is taken for the settings of its lines. -/
theorem ofToml_document (gap : Nat) (lines : List Line) :
    ofToml (document gap lines) = setKeyed [] {} (lines.map entryOf) := by
  obtain ⟨fuel, hdocument⟩ := ofToml_append gap lines ""
  rw [String.append_empty] at hdocument
  rw [hdocument]
  show setKeyed [] {} (lines.map entryOf ++ []) = _
  rw [List.append_nil]

/-- **Documents are read as choices.** The document of some lines gives a policy exactly when
they are the lines of choices, no two for one setting, that are sound with the defaults of
the settings which are left out. -/
theorem read_document_eq_ok_iff {gap : Nat} {lines : List Line} {compiler : SoundPolicy} :
    read (document gap lines) = .ok compiler ↔
      ∃ order : List Chosen, lines = order.map Chosen.line ∧
        (order.map Chosen.setting).Nodup ∧ order.foldl Chosen.apply {} = compiler.policy := by
  rw [read_eq_ok_iff, ofToml_document]
  constructor
  · intro h
    obtain ⟨policy, hpolicy, hcheck⟩ := h
    obtain ⟨order, hlines, hnodup, -, hfold⟩ := setKeyed_eq_ok_iff.mp hpolicy
    exact ⟨order, hlines, hnodup, hfold.trans (check_eq_ok_iff.mp hcheck).2.symm⟩
  · intro h
    obtain ⟨order, hlines, hnodup, hfold⟩ := h
    exact ⟨compiler.policy,
      setKeyed_eq_ok_iff.mpr ⟨order, hlines, hnodup, fun _ _ => List.not_mem_nil, hfold⟩,
      check_eq_ok_iff.mpr ⟨compiler.sound, rfl⟩⟩

/-- Whatever follows a document, its own lines have to be fit for settings. -/
theorem exists_set_of_read {gap : Nat} {lines : List Line} {rest : String}
    {compiler : SoundPolicy} (h : read (document gap lines ++ rest) = .ok compiler) :
    ∃ fuel others, Toml.readStatements (fuel + 2) rest.toList = some others ∧
      ∃ entries, others.mapM innerEntry = some entries ∧
        ∀ entry ∈ lines.map entryOf ++ entries, ∃ (setting : Setting) (before after : Policy),
          setting.key = entry.1 ∧ before.set setting entry.2 = .ok after := by
  obtain ⟨policy, hpolicy, -⟩ := read_eq_ok_iff.mp h
  obtain ⟨fuel, hdocument⟩ := ofToml_append gap lines rest
  rw [hdocument] at hpolicy
  cases hothers : Toml.readStatements (fuel + 2) rest.toList with
  | none =>
    rw [hothers] at hpolicy
    cases hpolicy
  | some others =>
    rw [hothers] at hpolicy
    dsimp only at hpolicy
    cases hentries : others.mapM innerEntry with
    | none =>
      rw [hentries] at hpolicy
      cases hpolicy
    | some entries =>
      rw [hentries] at hpolicy
      exact ⟨fuel, others, hothers, entries, hentries, exists_set_of_setKeyed hpolicy⟩

/-- A choice is read from the lines of it, whatever their order. -/
theorem read_of_perm (gap : Nat) {choice : Choice} {order : List Chosen}
    (h : order.Perm choice.chosen) :
    read (document gap (order.map Chosen.line)) = choice.policy.check := by
  have hnodup := (h.map Chosen.setting).nodup_iff.mpr choice.nodup_setting
  have hpolicy : setKeyed [] {} ((order.map Chosen.line).map entryOf) = .ok choice.policy :=
    setKeyed_eq_ok_iff.mpr
      ⟨order, rfl, hnodup, fun _ _ => List.not_mem_nil, Choice.foldl_of_perm h⟩
  rw [read, ofToml_document, hpolicy]

/-! ## Strangers -/

/-- The texts of the operators that a setting may be given. -/
def Setting.operators : Setting → List String
  | comparison | allowedComparisons => Comparison.all.map Comparison.sql
  | connective | allowedConnectives => Connective.all.map Connective.sql

/-- A line gives a setting the text of no operator. -/
def HasStranger (line : Line) : Prop :=
  ∃ setting : Setting, setting.key = line.key ∧
    ∃ text ∈ line.given.texts, text ∉ setting.operators

/-- Choices give settings the texts of operators. -/
theorem Chosen.mem_operators (chosen : Chosen) :
    ∀ text ∈ chosen.given.texts, text ∈ chosen.setting.operators := by
  cases chosen with
  | comparison op =>
    exact List.forall_mem_singleton.mpr (List.mem_map_of_mem (Comparison.mem_all op))
  | connective op =>
    exact List.forall_mem_singleton.mpr (List.mem_map_of_mem (Connective.mem_all op))
  | allowedComparisons ops =>
    exact List.forall_mem_map.mpr fun op _ => List.mem_map_of_mem (Comparison.mem_all op)
  | allowedConnectives ops =>
    exact List.forall_mem_map.mpr fun op _ => List.mem_map_of_mem (Connective.mem_all op)

/-- A line with the text of no operator is refused, whatever comes after it. -/
theorem refuses_stranger (gap : Nat) {before : List Line} {line : Line} (h : HasStranger line)
    (after : String) : Refuses (document gap (before ++ [line]) ++ after) := by
  refine refuses_of_not_ok fun compiler hread => ?_
  obtain ⟨_, _, -, entries, -, hset⟩ := exists_set_of_read hread
  obtain ⟨setting, hkey, text, htext, hforeign⟩ := h
  have hmem : entryOf line ∈ (before ++ [line]).map entryOf ++ entries :=
    List.mem_append_left _ (List.mem_map_of_mem (List.mem_append_right _ List.mem_cons_self))
  obtain ⟨other, _, _, hother, hset⟩ := hset _ hmem
  obtain ⟨chosen, rfl, hgiven, -⟩ := set_eq_ok_iff.mp hset
  rw [← eq_of_key (hother.trans hkey.symm)] at hforeign
  exact hforeign (chosen.mem_operators text (hgiven ▸ htext))

/-- A line with the key of no setting is refused, whatever is given to it and comes after it. -/
theorem refuses_unknown_key (gap : Nat) (before : List Line) {key : String}
    (h : ∀ setting : Setting, setting.key ≠ key) (after : String) :
    Refuses (document gap before ++ (String.ofList (Toml.keyChars key) ++ " =" ++ after)) := by
  refine refuses_of_not_ok fun compiler hread => ?_
  obtain ⟨fuel, others, hothers, entries, hentries, hset⟩ := exists_set_of_read hread
  have hrest : (String.ofList (Toml.keyChars key) ++ " =" ++ after).toList
      = Toml.keyChars key ++ ' ' :: '=' :: after.toList := by
    simp
  -- Whatever is behind the equals sign, the first entry that is read there has this key.
  rw [hrest, Toml.readStatements_keyChars] at hothers
  obtain ⟨⟨value, text⟩, -, hothers⟩ := Option.bind_eq_some_iff.mp hothers
  obtain ⟨text, -, hothers⟩ := Option.bind_eq_some_iff.mp hothers
  obtain ⟨others, -, rfl⟩ := Option.map_eq_some_iff.mp hothers
  rw [List.mapM_cons] at hentries
  obtain ⟨entry, hentry, hentries⟩ := Option.bind_eq_some_iff.mp hentries
  obtain ⟨entries, -, hentries⟩ := Option.bind_eq_some_iff.mp hentries
  cases hentry
  cases hentries
  obtain ⟨setting, _, _, hkey, -⟩ := hset (key, value)
    (List.mem_append_right _ List.mem_cons_self)
  exact h setting hkey

/-- **A written policy is read back or refused.** The document of a choice has a line for each
setting that is chosen, in any order, and as many blanks as one likes between the items of a
list. If the choice is sound together with the defaults of what it leaves out, exactly this
policy is read from its document, and otherwise the document is refused. A document is
refused as well for a line with the key of no setting, whatever is given to it, and for a
line that gives a setting the text of no operator; it does not matter what comes before
such a line or after it. -/
theorem read_document (gap : Nat) :
    (∀ (choice : Choice) (order : List Chosen), order.Perm choice.chosen →
      (∀ hsound : choice.policy.Sound,
        read (document gap (order.map Chosen.line)) = .ok ⟨choice.policy, hsound⟩) ∧
      (¬ choice.policy.Sound → Refuses (document gap (order.map Chosen.line)))) ∧
    ∀ (before : List Line) (after : String),
      (∀ key : String, (∀ setting : Setting, setting.key ≠ key) →
        Refuses (document gap before ++ (String.ofList (Toml.keyChars key) ++ " =" ++ after))) ∧
      ∀ line : Line, HasStranger line → Refuses (document gap (before ++ [line]) ++ after) := by
  refine ⟨fun choice order horder => ?_,
    fun before after => ⟨fun key hkey => refuses_unknown_key gap before hkey after,
      fun line hline => refuses_stranger gap hline after⟩⟩
  have hread := read_of_perm gap horder
  constructor
  · intro hsound
    rw [hread, check, dif_pos hsound]
  · intro hunsound
    rw [check, dif_neg hunsound] at hread
    exact ⟨choice.policy.unsoundness, hread, code_unsoundness choice.policy⟩

/-- A choice that allows one comparison twice, and has it in place of the default. -/
def memberships : Choice where
  comparison := some .isIn
  allowedComparisons := some [.isIn, .notIn, .isIn]

/-- A choice that does not allow the default of the connective. -/
def alternatives : Choice where
  allowedConnectives := some [.or, .xor]

/-- Lists that allow memberships alone, with and without a default among them. -/
theorem read_document_memberships :
    (∃ compiler,
      read ("[compiler]\nallowed_comparisons = [\"IN\", \"NOT IN\", \"IN\"]\n"
          ++ "default_comparison = \"IN\"\n") = .ok compiler ∧
      compiler.policy = { comparison := .isIn, allowedComparisons := [.isIn, .notIn, .isIn] }) ∧
    Refuses "[compiler]\nallowed_logicals = [\"OR\", \"XOR\"]\n" ∧
    Refuses "[compiler]\nstrict = true\n" ∧
    Refuses "[compiler]\ndefault_comparison = \"~\"\ndefault_logical = \"OR\"\n" := by
  obtain ⟨hchoices, hstrangers⟩ := read_document 1
  refine ⟨⟨⟨memberships.policy, by decide⟩, ?_, rfl⟩, ?_, ?_, ?_⟩
  · have htext : document 1 ([.allowedComparisons [.isIn, .notIn, .isIn], .comparison .isIn].map
        Chosen.line) = "[compiler]\nallowed_comparisons = [\"IN\", \"NOT IN\", \"IN\"]\n"
          ++ "default_comparison = \"IN\"\n" := by decide +kernel
    rw [← htext]
    exact (hchoices memberships _ (List.Perm.swap _ _ _)).1 (by decide)
  · have htext : document 1 ([.allowedConnectives [.or, .xor]].map Chosen.line)
        = "[compiler]\nallowed_logicals = [\"OR\", \"XOR\"]\n" := by decide +kernel
    rw [← htext]
    exact (hchoices alternatives _ (List.Perm.refl _)).2 (by decide)
  · have htext : document 1 [] ++ (String.ofList (Toml.keyChars "strict") ++ " =" ++ " true\n")
        = "[compiler]\nstrict = true\n" := by decide +kernel
    rw [← htext]
    exact (hstrangers [] _).1 "strict" fun setting => by cases setting <;> decide
  · have htext : document 1 ([] ++ [⟨"default_comparison", .one "~"⟩])
          ++ "default_logical = \"OR\"\n"
        = "[compiler]\ndefault_comparison = \"~\"\ndefault_logical = \"OR\"\n" := by
      decide +kernel
    rw [← htext]
    exact (hstrangers [] _).2 _ ⟨.comparison, rfl, "~", List.mem_cons_self, by decide +kernel⟩

end Policy

end BoundSql
