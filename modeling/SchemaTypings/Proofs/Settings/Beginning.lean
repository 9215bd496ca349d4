import SchemaTypings.Settings
import SchemaTypings.Sdl.Token
import SchemaTypings.Proofs.Text.Reading
import SchemaTypings.Proofs.Traversal

/-!
# How settings begin

Behind blanks and comments, which are no more than that in a schema text either, the text of
settings ends, or a header stands there, or an assignment to one of the settings.
-/

namespace SchemaTypings

open Text Reader

namespace Toml

/-! ### Names in a table -/

def Entries.names (entries : Entries) : List String := entries.map fun entry => entry.1.name

/-- A table keeps its names when an entry is added. -/
theorem Entries.names_subset_append (entries others : Entries) :
    entries.names ⊆ Entries.names (entries ++ others) := by
  rw [Entries.names, Entries.names, List.map_append]
  exact List.subset_append_left _ _

/-- A table keeps its names when an entry is replaced. -/
theorem Entries.names_subset_replace (entries : Entries) (entry : Key × Span × Value) :
    entries.names ⊆ Entries.names (Entries.replace entries entry) := by
  have same : Entries.names (Entries.replace entries entry) = entries.names := by
    simp only [Entries.names, Entries.replace, List.map_map]
    refine List.map_congr_left fun old _ => ?_
    simp only [Function.comp_apply]
    split
    · next named => simpa using (beq_iff_eq.mp named).symm
    · rfl
  rw [same]
  exact List.Subset.refl _

/-- The change keeps the names of a table. -/
def KeepsNames (change : Change) : Prop :=
  ∀ origin entries entries', change origin entries = some entries' →
    Entries.names entries ⊆ Entries.names entries'

/-- A change below the first key of a path keeps the names, if it does at the end of the
path. -/
theorem keepsNames_changeAt (dotted : Bool) (path : List Key) {change : Change}
    (keeps : KeepsNames change) : KeepsNames (changeAt dotted path change) := by
  cases path with
  | nil => exact keeps
  | cons key path =>
    intro origin entries entries' changed
    unfold changeAt at changed
    split at changed
    · obtain ⟨inner, -, ⟨⟩⟩ := Option.bind_eq_some_iff.mp changed
      exact Entries.names_subset_append _ _
    · split at changed
      · cases changed
      · obtain ⟨inner, -, ⟨⟩⟩ := Option.bind_eq_some_iff.mp changed
        exact Entries.names_subset_replace _ _
    · obtain ⟨items, -, ⟨⟩⟩ := Option.bind_eq_some_iff.mp changed
      exact Entries.names_subset_replace _ _
    · cases changed

/-- Giving a value to a key keeps the names of the table. -/
theorem keepsNames_assign (isDotted : Bool) (key : Key) (span : Span) (value : Value) :
    KeepsNames (assign isDotted key span value) := by
  intro origin entries entries' changed
  unfold assign at changed
  split at changed
  · cases changed
  · split at changed
    · cases changed
      exact Entries.names_subset_append _ _
    · cases changed

/-- So does a header. -/
theorem keepsNames_openTable (key : Key) (span : Span) : KeepsNames (openTable key span) := by
  intro origin entries entries' changed
  unfold openTable at changed
  split at changed
  · cases changed
    exact Entries.names_subset_append _ _
  · cases changed
    exact Entries.names_subset_replace _ _
  · cases changed

theorem keepsNames_openTables (key : Key) (span : Span) : KeepsNames (openTables key span) := by
  intro origin entries entries' changed
  unfold openTables at changed
  split at changed
  · cases changed
    exact Entries.names_subset_append _ _
  · cases changed
    exact Entries.names_subset_replace _ _
  · cases changed

/-- The names of a table last while more statements are carried out. -/
theorem names_subset_of_build {current : List Key} {root entries : Entries}
    {statements : List Statement} (built : build current root statements = some entries) :
    root.names ⊆ entries.names := by
  induction statements generalizing current root with
  | nil =>
    cases built
    exact List.Subset.refl _
  | cons statement rest ih =>
    cases statement with
    | header parents key span =>
      obtain ⟨root', changed, built⟩ := Option.bind_eq_some_iff.mp built
      have keeps := keepsNames_changeAt false parents (keepsNames_openTable key span)
      exact List.Subset.trans (keeps _ _ _ changed) (ih built)
    | arrayHeader parents key span =>
      obtain ⟨root', changed, built⟩ := Option.bind_eq_some_iff.mp built
      have keeps := keepsNames_changeAt false parents (keepsNames_openTables key span)
      exact List.Subset.trans (keeps _ _ _ changed) (ih built)
    | assignment parents key span value =>
      obtain ⟨root', changed, built⟩ := Option.bind_eq_some_iff.mp built
      have keeps := keepsNames_changeAt false current
        (keepsNames_changeAt true parents (keepsNames_assign (!parents.isEmpty) key span value))
      exact List.Subset.trans (keeps _ _ _ changed) (ih built)

/-- The first key of an assignment that comes first is a key of the document. -/
theorem mem_names_of_rootOf {parents : List Key} {key : Key} {span : Span} {value : Value}
    {rest : List Statement} {entries : Entries}
    (built : rootOf (.assignment parents key span value :: rest) = some entries) :
    ((parents ++ [key]).head (by simp)).name ∈ entries.names := by
  obtain ⟨root, changed, built⟩ := Option.bind_eq_some_iff.mp built
  refine names_subset_of_build built ?_
  change changeAt true parents _ .header [] = some root at changed
  cases parents with
  | nil =>
    cases changed
    simp [Entries.names]
  | cons first others =>
    obtain ⟨inner, -, ⟨⟩⟩ := Option.bind_eq_some_iff.mp changed
    simp [Entries.names]

end Toml

namespace Settings

/-- Entries that are written in the order of their names are taken up as they are written. -/
theorem ofText_of_sorted {text : List Char} {settings : Settings}
    (sorted : ∃ entries ∈ Toml.parse text, entries.Pairwise (fun a b => a.1.name ≤ b.1.name) ∧
      entries.foldlM withEntry {} = .ok settings) : ofText text = .ok settings := by
  obtain ⟨entries, parsed, inOrder, taken⟩ := sorted
  have same : byName entries = entries :=
    List.mergeSort_of_pairwise (inOrder.imp fun le => decide_eq_true le)
  rw [ofText, Option.mem_def.mp parsed]
  exact (congrArg (List.foldlM withEntry {}) same).trans taken

/-- An entry that is taken up has one of the known names. -/
theorem mem_settingNames_of_withEntry {settings settings' : Settings}
    {entry : Toml.Key × Toml.Span × Toml.Value} (taken : settings.withEntry entry = .ok settings') :
    entry.1.name ∈ settingNames := by
  by_contra unknown
  simp only [settingNames, List.mem_cons, List.not_mem_nil, or_false, not_or] at unknown
  obtain ⟨notSchema, notName, notOutput, notScalars⟩ := unknown
  simp only [withEntry, if_neg notSchema, if_neg notName, if_neg notOutput, if_neg notScalars]
    at taken
  cases taken

/-- Settings that are accepted have known names only. -/
theorem mem_settingNames_of_foldlM {settings settings' : Settings} {entries : Toml.Entries}
    (taken : entries.foldlM withEntry settings = .ok settings') :
    ∀ entry ∈ entries, entry.1.name ∈ settingNames := by
  induction entries generalizing settings with
  | nil => simp
  | cons entry rest ih =>
    rw [List.foldlM_cons] at taken
    obtain ⟨settings'', head, tail⟩ := Traversal.bind_eq_ok_iff.mp taken
    exact List.forall_mem_cons.mpr ⟨mem_settingNames_of_withEntry head, ih tail⟩

/-- Settings have no other entries than those that are known. -/
theorem names_subset_of_ofText {text : List Char} {settings : Settings}
    (read : ofText text = .ok settings) :
    ∃ entries, Toml.parse text = some entries ∧ entries.names ⊆ settingNames := by
  unfold ofText at read
  cases parsed : Toml.parse text with
  | none => simp [parsed] at read
  | some entries =>
    rw [parsed] at read
    refine ⟨entries, rfl, fun name mem => ?_⟩
    obtain ⟨entry, listed, rfl⟩ := List.mem_map.mp mem
    exact mem_settingNames_of_foldlM read entry (List.mem_mergeSort.mpr listed)

end Settings

/-! ### Where the text begins -/

namespace Toml

open Sdl (skipBlank skipFrom)

/-- What a comment leaves, a schema text has behind the same comment. -/
theorem skipFrom_afterComment {comment rest : List Char}
    (found : afterComment comment = some rest) :
    skipFrom true comment = skipFrom true rest := by
  fun_induction afterComment comment with
  | case1 => cases found; rfl
  | case2 rest' => cases found; rfl
  | case3 rest' => cases found; rfl
  | case4 c rest' _ _ plain ih =>
    have goesOn : Sdl.isLineEnd c = false := by
      by_contra ends
      simp only [Sdl.isLineEnd, Bool.not_eq_false, Bool.or_eq_true, beq_iff_eq] at ends
      rcases ends with rfl | rfl <;> exact absurd plain (by decide)
    rw [skipFrom, goesOn]
    exact ih found
  | case5 c rest' _ _ plain => cases found

theorem isBlank_of_isSpace {c : Char} (space : isSpace c = true) : Sdl.isBlank c = true := by
  simp only [isSpace, Bool.or_eq_true, beq_iff_eq] at space
  rcases space with rfl | rfl <;> rfl

/-- What is blank in a settings text is blank in a schema text. -/
theorem skipBlank_dropWhile_isSpace (text : List Char) :
    skipBlank (text.dropWhile isSpace) = skipBlank text := by
  induction text with
  | nil => rfl
  | cons c rest ih =>
    rw [List.dropWhile_cons]
    split
    · next space =>
      rw [ih, skipBlank, skipBlank, skipFrom, if_pos (isBlank_of_isSpace space)]
    · rfl

/-- The end of a line says nothing in a schema text. -/
theorem skipBlank_of_lineEnd {text rest : List Char}
    (found : (lineEnd text).result = some ((), rest)) : skipBlank text = skipBlank rest := by
  rw [← skipBlank_dropWhile_isSpace text]
  simp only [lineEnd, ofFunction] at found
  split at found
  · next comment hash =>
    obtain ⟨left, commented, found⟩ := Option.bind_eq_some_iff.mp found
    rw [hash, skipBlank, skipFrom, if_neg (by decide), if_pos rfl, skipFrom_afterComment commented]
    split at found <;> cases found <;> rfl
  · obtain ⟨left, eq, found⟩ := Option.bind_eq_some_iff.mp found
    rw [Option.some.inj eq]
    split at found <;> cases found <;> rfl

/-! ### Statements -/

abbrev statement : Reader Statement := firstOf [arrayHeader, header, assignment]

/-- A line says nothing, or has a statement behind its blanks. -/
theorem line_cases {text rest : List Char} {found : Option Statement}
    (read : (line text).result = some (found, rest)) :
    found = none ∧ skipBlank text = skipBlank rest ∨
      ∃ said start behind, found = some said ∧ skipBlank text = skipBlank start ∧
        (statement start).result = some (said, behind) := by
  have blanks : (spaces text).result = some ((), text.dropWhile isSpace) := rfl
  rw [line, result_bind_of_some blanks, result_bind] at read
  obtain ⟨⟨found', middle⟩, tried, read⟩ := Option.bind_eq_some_iff.mp read
  change ((lineEnd >>= fun _ => done found') middle).result = _ at read
  rw [result_bind] at read
  obtain ⟨⟨⟨⟩, rest'⟩, ended, read⟩ := Option.bind_eq_some_iff.mp read
  cases read
  rw [result_optional] at tried
  cases said : (statement (text.dropWhile isSpace)).result with
  | none =>
    rw [said] at tried
    cases tried
    exact .inl ⟨rfl, (skipBlank_dropWhile_isSpace text).symm.trans (skipBlank_of_lineEnd ended)⟩
  | some taken =>
    rw [said] at tried
    cases tried
    exact .inr ⟨taken.1, _, taken.2, rfl, (skipBlank_dropWhile_isSpace text).symm, said⟩

/-- A document says nothing, or begins with its first statement, as far as a schema text can
tell. -/
theorem lines_cases {text : List Char} {lines : List (Option Statement)}
    (read : (many line text).result = some (lines, [])) :
    skipBlank text = [] ∨
      ∃ said others start behind, lines.filterMap id = said :: others ∧
        skipBlank text = skipBlank start ∧ (statement start).result = some (said, behind) := by
  fun_induction Reader.many line text generalizing lines with
  | case1 text stuck failed =>
    cases read
    exact .inl rfl
  | case2 text stuck found middle first shorter =>
    rename_i rest ih
    obtain ⟨⟨lines', last⟩, later, eq⟩ := Option.map_eq_some_iff.mp read
    cases eq
    rcases line_cases (by rw [first]) with ⟨rfl, same⟩ | ⟨said, start, behind, rfl, same, begun⟩
    -- a line that says nothing is a gap for a schema text
    · rw [same, List.filterMap_cons_none rfl]
      exact ih later
    · exact .inr ⟨said, lines'.filterMap id, start, behind, rfl, same, begun⟩
  | case3 text stuck found middle first same =>
    cases read
    exact .inl rfl

/-! ### The first statement -/

/-- How a statement begins: with a bracket, or with the key of a setting and, behind it, the
point of a longer key or the equals sign. -/
inductive BeginsSetting : List Char → Prop where
  | header (rest : List Char) : BeginsSetting ('[' :: rest)
  | key {text name rest more : List Char} {mark : Char} (taken : takeKey text = some (name, rest))
      (known : String.ofList name ∈ settingNames)
      (marked : rest.dropWhile isSpace = mark :: more) (isMark : mark = '.' ∨ mark = '=') :
      BeginsSetting text

theorem result_mark {c : Char} {text rest : List Char}
    (found : (mark c text).result = some ((), rest)) : text = c :: rest := by
  cases text with
  | nil => cases found
  | cons d text =>
    simp only [mark, ofFunction] at found
    split at found
    · next same =>
      cases found
      rw [same]
    · cases found

/-- A header begins with a bracket. -/
theorem begins_bracket {α : Type} {next : Nat → Unit → Reader α} {text : List Char}
    {found : α × List Char}
    (read : ((remaining >>= fun start => mark '[' >>= next start) text).result = some found) :
    ∃ rest, text = '[' :: rest := by
  have left : (remaining text).result = some (text.length, text) := rfl
  rw [result_bind_of_some left, result_bind] at read
  obtain ⟨⟨⟨⟩, rest⟩, marked, -⟩ := Option.bind_eq_some_iff.mp read
  exact ⟨rest, result_mark marked⟩

/-- A statement is a header or an assignment. -/
theorem statement_cases {text behind : List Char} {said : Statement}
    (read : (statement text).result = some (said, behind)) :
    (∃ rest, text = '[' :: rest) ∨ (assignment text).result = some (said, behind) := by
  change (orElse arrayHeader (orElse header assignment) text).result = _ at read
  rw [result_orElse, Option.or_eq_some_iff, result_orElse, Option.or_eq_some_iff] at read
  rcases read with read | ⟨-, read | ⟨-, read⟩⟩
  · exact .inl (begins_bracket read)
  · exact .inl (begins_bracket read)
  · exact .inr read

/-- A further key of a path, behind its point. -/
abbrev furtherKey : Reader Key := do
  spaces
  mark '.'
  spaces
  key

/-- A further key stands behind a point. -/
theorem begins_furtherKey {text rest : List Char} {found : Key}
    (read : (furtherKey text).result = some (found, rest)) :
    ∃ more, text.dropWhile isSpace = '.' :: more := by
  have blanks : (spaces text).result = some ((), text.dropWhile isSpace) := rfl
  rw [furtherKey, result_bind_of_some blanks, result_bind] at read
  obtain ⟨⟨⟨⟩, more⟩, marked, -⟩ := Option.bind_eq_some_iff.mp read
  exact ⟨more, result_mark marked⟩

/-- Behind the first key of a path stands a point or the end of the path. -/
theorem keyPath_cases {text rest : List Char} {parents : List Key} {last : Key}
    (read : (keyPath text).result = some ((parents, last), rest)) :
    ∃ first behind, (key text).result = some (first, behind) ∧
      (parents ++ [last]).head (by simp) = first ∧
      (behind = rest ∨ ∃ more, behind.dropWhile isSpace = '.' :: more) := by
  rw [keyPath, result_bind] at read
  obtain ⟨⟨first, behind⟩, found, read⟩ := Option.bind_eq_some_iff.mp read
  let path (others : List Key) : Reader (List Key × Key) :=
    if (first :: others).length ≤ maxNesting then
      done ((first :: others).dropLast, (first :: others).getLast?.getD first)
    else fail
  change ((andThen (many furtherKey) path) behind).result = _ at read
  obtain ⟨⟨others, rest'⟩, more, read⟩ :=
    Option.bind_eq_some_iff.mp (result_andThen.symm.trans read)
  simp only [path] at read
  split at read
  · cases read
    refine ⟨first, behind, found, ?_, ?_⟩
    · cases others <;> rfl
    · cases further : (furtherKey behind).result with
      | none =>
        rw [result_many_of_none further] at more
        cases more
        exact .inl rfl
      | some taken => exact .inr (begins_furtherKey further)
  · cases read

/-- An assignment begins with its first key, and behind that stands a point or the equals
sign. -/
theorem assignment_cases {text rest : List Char} {said : Statement}
    (read : (assignment text).result = some (said, rest)) :
    ∃ parents last span value first behind mark more,
      said = .assignment parents last span value ∧ (key text).result = some (first, behind) ∧
      (parents ++ [last]).head (by simp) = first ∧
      behind.dropWhile isSpace = mark :: more ∧ (mark = '.' ∨ mark = '=') := by
  rw [assignment, result_bind] at read
  obtain ⟨⟨⟨parents, last, span, value'⟩, rest'⟩, assigned, read⟩ := Option.bind_eq_some_iff.mp read
  cases read
  rw [assignmentOf, result_bind] at assigned
  obtain ⟨⟨⟨parents', last'⟩, left⟩, path, assigned⟩ := Option.bind_eq_some_iff.mp assigned
  have blanks : (spaces left).result = some ((), left.dropWhile isSpace) := rfl
  dsimp only at assigned
  rw [result_bind_of_some blanks, result_bind] at assigned
  obtain ⟨⟨⟨⟩, more⟩, marked, assigned⟩ := Option.bind_eq_some_iff.mp assigned
  have blanks' : (spaces more).result = some ((), more.dropWhile isSpace) := rfl
  dsimp only at assigned
  rw [result_bind_of_some blanks', result_bind] at assigned
  obtain ⟨⟨valued, last'⟩, -, assigned⟩ := Option.bind_eq_some_iff.mp assigned
  cases assigned
  obtain ⟨first, behind, found, head, rfl | ⟨more', dotted⟩⟩ := keyPath_cases path
  · exact ⟨_, _, _, _, first, behind, '=', more, rfl, found, head, result_mark marked, .inr rfl⟩
  · exact ⟨_, _, _, _, first, behind, '.', more', rfl, found, head, dotted, .inl rfl⟩

end Toml

open Toml

/-- The text of settings says nothing, or begins with a header or the key of a setting, as far
as a schema text can tell. -/
theorem Settings.begins_of_ofText {text : List Char} {settings : Settings}
    (read : Settings.ofText text = .ok settings) :
    Sdl.skipBlank text = [] ∨
      ∃ start, Sdl.skipBlank text = Sdl.skipBlank start ∧ BeginsSetting start := by
  obtain ⟨entries, parsed, known⟩ := names_subset_of_ofText read
  have unmarked : Sdl.skipBlank (withoutMark text) = Sdl.skipBlank text := by
    unfold withoutMark
    split <;> rfl
  rw [← unmarked]
  unfold Toml.parse at parsed
  split at parsed
  · next statements found =>
    rcases lines_cases found with blank | ⟨said, others, start, behind, listed, same, begun⟩
    · exact .inl blank
    · refine .inr ⟨start, same, ?_⟩
      rw [listed] at parsed
      rcases statement_cases begun with ⟨rest, rfl⟩ | assigned
      · exact .header rest
      · obtain ⟨parents, last, span, value, first, left, mark, more, rfl, found, head, marked,
            isMark⟩ :=
          assignment_cases assigned
        have named := known (mem_names_of_rootOf parsed)
        rw [head] at named
        obtain ⟨⟨name, left'⟩, taken, eq⟩ := Option.map_eq_some_iff.mp found
        cases eq
        exact .key taken named marked isMark
  · cases parsed

end SchemaTypings
