import SchemaTypings.Proofs.Generation.Decoding
import SchemaTypings.Proofs.Generation.Locality
import SchemaTypings.Proofs.Loading.Joining.Documents

/-!
# Generating from joined texts

The module of two joined texts is what the modules of the two say, one behind the other,
as long as no type is declared in both: a field refers in the joined schema to what it
refers to in its own. If a type is declared in both, the joined text is refused. All of
this needs a first text whose block strings are closed before the second one can do so.
-/

namespace SchemaTypings

open Traversal

/-! ### Schemas that are part of another one -/

/-- In a larger schema a known name leads to what it led to. -/
theorem Schema.standing_of_subset {schema whole : Schema} {name : String}
    (part : ∀ definition ∈ schema.toList, definition ∈ whole.toList)
    (known : name ∈ schema.names) : schema.standing name = whole.standing name := by
  refine standing_congr ?_
  cases found : schema.find? name with
  | none => exact absurd known (NamedList.find?_eq_none_iff.mp found)
  | some definition =>
    obtain ⟨mem, named⟩ := NamedList.find?_eq_some_iff.mp found
    exact (NamedList.find?_eq_some_iff.mpr ⟨part definition mem, named⟩).symm

def standardDefinitions : List Definition :=
  StandardScalar.all.map fun standard => .scalar (.ofStandard standard)

/-- Where no standard scalar is declared, all of them are added. -/
theorem standardBeside_eq {names : List String}
    (plain : ∀ standard : StandardScalar, standard.name ∉ names) :
    Sdl.standardBeside names = standardDefinitions := by
  rw [Sdl.standardBeside, List.filter_eq_self.mpr]
  · rfl
  · exact fun standard _ => decide_eq_true (plain standard)

/-- With all standard scalars defined, a schema knows the names that it defines and no
others. -/
theorem mem_names_of_knows {schema : Schema} {name : String}
    (standard : ∀ definition ∈ standardDefinitions, definition ∈ schema.toList)
    (known : schema.Knows name) : name ∈ schema.names := by
  rcases known with mem | ⟨scalar, rfl⟩
  · exact mem
  · have listed : scalar ∈ StandardScalar.all := by cases scalar <;> decide
    exact List.mem_map_of_mem (f := Named.name) (standard _ (List.mem_map_of_mem listed))

/-- The generator with a module name, the default rules, and links to spare. -/
abbrev defaultGenerator (moduleName : Option String) (spare : Nat) : Generator :=
  .ofOptions ⟨moduleName, { spare }⟩

/-- Standard scalars are declared by nothing. -/
theorem textOf_standardDefinitions (moduleName : Option String) (spare : Nat) (schema : Schema) :
    ∀ definition ∈ standardDefinitions,
      (defaultGenerator moduleName spare).renderDefinition schema definition = .ok "" := by
  refine List.forall_mem_map.mpr fun standard _ => ?_
  cases standard <;> rfl

theorem join_eq_empty {texts : List String} (empty : ∀ text ∈ texts, text = "") :
    String.join texts = "" := by
  induction texts with
  | nil => rfl
  | cons text texts ih =>
    obtain ⟨first, others⟩ := List.forall_mem_cons.mp empty
    rw [String.join_cons, first, ih others]
    rfl

section Joined

variable {schema schema' whole : Schema} {definitions definitions' : List Definition}
  {moduleName : Option String} {spare : Nat} {generated generated' : Generated}

/-- The definitions that are not hidden by their names. -/
def shown (definitions : List Definition) : List Definition :=
  definitions.filter fun definition => !isReserved definition.name

/-- Where a schema adds definitions to the standard scalars, its module is what is said of
those. -/
theorem generate_eq_ok_iff_shown (content : schema.toList = standardDefinitions ++ definitions) :
    generateTypes schema ⟨moduleName, { spare }⟩ = .ok generated ↔
      (∀ definition ∈ shown definitions,
        (defaultGenerator moduleName spare).renderDefinition schema definition =
          .ok ((defaultGenerator moduleName spare).textOf schema definition)) ∧
      generated = ⟨(defaultGenerator moduleName spare).moduleName, String.join
        ((shown definitions).map ((defaultGenerator moduleName spare).textOf schema))⟩ := by
  have visible : schema.visible = shown standardDefinitions ++ shown definitions := by
    rw [Schema.visible, content, List.filter_append]
    rfl
  have standard : ∀ definition ∈ shown standardDefinitions,
      (defaultGenerator moduleName spare).renderDefinition schema definition = .ok "" :=
    fun definition mem =>
      textOf_standardDefinitions moduleName spare schema definition (List.mem_of_mem_filter mem)
  have empty : ∀ definition ∈ shown standardDefinitions,
      (defaultGenerator moduleName spare).textOf schema definition = "" := by
    intro definition mem
    rw [Generator.textOf, standard definition mem]
  have silent := join_eq_empty (List.forall_mem_map.mpr empty)
  rw [generateTypes, Generator.generate_eq_ok_iff_textOf, visible, List.forall_mem_append,
    List.map_append, String.join_append, silent, String.empty_append]
  exact and_congr_left fun _ => and_iff_right fun definition mem => by
    rw [empty definition mem, standard definition mem]

/-- A schema that generates a module declares its visible definitions in every larger
schema alike. -/
theorem renderDefinition_of_subset (content : schema.toList = standardDefinitions ++ definitions)
    (part : ∀ definition ∈ schema.toList, definition ∈ whole.toList)
    (succeeds : generateTypes schema ⟨moduleName, { spare }⟩ = .ok generated)
    {definition : Definition} (mem : definition ∈ shown definitions) :
    (defaultGenerator moduleName spare).renderDefinition schema definition =
      (defaultGenerator moduleName spare).renderDefinition whole definition := by
  have visible : definition ∈ schema.visible := by
    rw [Schema.visible, content, List.filter_append]
    exact List.mem_append_right _ mem
  have standard : ∀ definition ∈ standardDefinitions, definition ∈ schema.toList :=
    fun definition mem => content ▸ List.mem_append_left _ mem
  have known := (generate_default_eq_ok succeeds).1 definition visible
  refine (ScalarTable.areLocal [] spare).declare_congr fun field listed => ?_
  exact Schema.standing_of_subset part (mem_names_of_knows standard (known field listed))

/-- What a schema says of its definitions is what every larger schema says of them. -/
theorem generated_of_subset (content : schema.toList = standardDefinitions ++ definitions)
    (part : ∀ definition ∈ schema.toList, definition ∈ whole.toList)
    (succeeds : generateTypes schema ⟨moduleName, { spare }⟩ = .ok generated) :
    (∀ definition ∈ shown definitions,
      (defaultGenerator moduleName spare).renderDefinition whole definition =
        .ok ((defaultGenerator moduleName spare).textOf whole definition)) ∧
    generated = ⟨(defaultGenerator moduleName spare).moduleName, String.join
      ((shown definitions).map ((defaultGenerator moduleName spare).textOf whole))⟩ := by
  have same := fun definition mem =>
    @renderDefinition_of_subset _ _ _ _ _ _ content part succeeds definition mem
  have texts : ∀ definition ∈ shown definitions,
      (defaultGenerator moduleName spare).textOf schema definition =
        (defaultGenerator moduleName spare).textOf whole definition := by
    intro definition mem
    rw [Generator.textOf, Generator.textOf, same definition mem]
  obtain ⟨rendered, rfl⟩ := (generate_eq_ok_iff_shown content).mp succeeds
  refine ⟨fun definition mem => ?_, by rw [List.map_congr_left texts]⟩
  rw [← same definition mem, ← texts definition mem, rendered definition mem]

/-- Where two schemas share nothing but the standard scalars, the definitions of both make
up the module of what the two modules say. -/
theorem generate_joined (content : schema.toList = standardDefinitions ++ definitions)
    (content' : schema'.toList = standardDefinitions ++ definitions')
    (joined : whole.toList = standardDefinitions ++ (definitions ++ definitions'))
    (succeeds : generateTypes schema ⟨moduleName, { spare }⟩ = .ok generated)
    (succeeds' : generateTypes schema' ⟨moduleName, { spare }⟩ = .ok generated') :
    generateTypes whole ⟨moduleName, { spare }⟩ =
      .ok ⟨generated.moduleName, generated.content ++ generated'.content⟩ := by
  have part : ∀ definition ∈ schema.toList, definition ∈ whole.toList := by
    rw [content, joined, ← List.append_assoc]
    exact fun definition mem => List.mem_append_left _ mem
  have part' : ∀ definition ∈ schema'.toList, definition ∈ whole.toList := by
    rw [content', joined]
    simp only [List.mem_append]
    exact fun definition mem => mem.imp_right .inr
  obtain ⟨rendered, rfl⟩ := generated_of_subset content part succeeds
  obtain ⟨rendered', rfl⟩ := generated_of_subset content' part' succeeds'
  have both : shown (definitions ++ definitions') = shown definitions ++ shown definitions' :=
    List.filter_append ..
  rw [generate_eq_ok_iff_shown joined, both, List.forall_mem_append, List.map_append,
    String.join_append]
  exact ⟨⟨rendered, rendered'⟩, rfl⟩

end Joined

/-! ### Joined sources -/

/-- A text is generated from in three steps: it is parsed, defined and generated from. -/
theorem generateTypesFromSource_of_parse {text : String} {document : Sdl.Document}
    {schema : Schema} {options : Options} {generated : Generated}
    (parsed : Sdl.parse text.toList = .ok document)
    (defined : Sdl.define document.types = .ok schema)
    (generates : generateTypes schema options = .ok generated) :
    generateTypesFromSource text options = .ok generated := by
  have loaded : Sdl.load ⟨Sdl.defaultSourceName, text⟩ = .ok schema :=
    Sdl.load_eq_ok_iff.mpr ⟨document, parsed, defined⟩
  exact generateTypesFromSource_eq_ok_iff.mpr ⟨schema, loaded, generates⟩

section Sources

variable {first second sourceName : String} {document document' : Sdl.Document}
  {schema schema' : Schema}

/-- Texts that keep their strings apart are parsed one after the other. -/
theorem parse_append (keeps : Sdl.KeepsStrings first.toList second.toList)
    (parsed : Sdl.parse first.toList = .ok document)
    (parsed' : Sdl.parse second.toList = .ok document') :
    Sdl.parse (first ++ "\n" ++ second).toList =
      .ok (Sdl.moved (second.toList.length + 1) document ++ document') := by
  have chars : (first ++ "\n" ++ second).toList = first.toList ++ '\n' :: second.toList := by
    rw [String.toList_append, String.toList_append, List.append_assoc]
    rfl
  rw [chars, Sdl.parse_joined keeps parsed parsed']

/-- A text that is parsed and loaded is loaded by defining the types of its document. -/
theorem define_of_load (parsed : Sdl.parse first.toList = .ok document)
    (loaded : Sdl.load ⟨sourceName, first⟩ = .ok schema) :
    Sdl.define document.types = .ok schema := by
  obtain ⟨other, again, defined⟩ := Sdl.load_eq_ok_iff.mp loaded
  cases parsed.symm.trans again
  exact defined

/-- What a text adds to the standard scalars if it declares none of them. -/
theorem content_of_load (plain : ∀ standard : StandardScalar,
      standard.name ∉ Sdl.typeNames document.types)
    (defined : Sdl.define document.types = .ok schema) :
    ∃ definitions, List.Forall₂ Sdl.Describes document.types definitions ∧
      schema.toList = standardDefinitions ++ definitions := by
  obtain ⟨definitions, described, content⟩ := Sdl.define_list_eq_ok_iff.mp defined
  exact ⟨definitions, described, standardBeside_eq plain ▸ content⟩

/-- Texts that declare no name in common make up one schema. -/
theorem exists_load_joined (keeps : Sdl.KeepsStrings first.toList second.toList)
    (parsed : Sdl.parse first.toList = .ok document)
    (parsed' : Sdl.parse second.toList = .ok document')
    (defined : Sdl.define document.types = .ok schema)
    (defined' : Sdl.define document'.types = .ok schema')
    (plain : ∀ standard : StandardScalar, standard.name ∉ Sdl.typeNames document.types)
    (plain' : ∀ standard : StandardScalar, standard.name ∉ Sdl.typeNames document'.types)
    (apart : ∀ name ∈ Sdl.typeNames document'.types, name ∉ Sdl.typeNames document.types) :
    ∃ definitions definitions' whole,
      schema.toList = standardDefinitions ++ definitions ∧
      schema'.toList = standardDefinitions ++ definitions' ∧
      Sdl.load ⟨sourceName, first ++ "\n" ++ second⟩ = .ok whole ∧
      whole.toList = standardDefinitions ++ (definitions ++ definitions') := by
  obtain ⟨definitions, described, content⟩ := content_of_load plain defined
  obtain ⟨definitions', described', content'⟩ := content_of_load plain' defined'
  obtain ⟨whole, definedWhole, contentWhole⟩ : ∃ whole, Sdl.define
      (Sdl.moved (second.toList.length + 1) document.types ++ document'.types) = .ok whole ∧ _ :=
    Sdl.define_joined described described' (Sdl.nodup_typeNames_of_define defined)
      (Sdl.nodup_typeNames_of_define defined') apart
  refine ⟨definitions, definitions', whole, content, content', ?_, ?_⟩
  · exact Sdl.load_eq_ok_iff.mpr
      ⟨_, parse_append keeps parsed parsed', Sdl.types_joined.symm ▸ definedWhole⟩
  · rw [contentWhole, standardBeside_eq]
    exact fun standard mem => (List.mem_append.mp mem).elim (plain standard) (plain' standard)

/-- Texts that declare a name in common are refused for the first name of the second one
that the first one declares too. -/
theorem load_joined_eq_error (keeps : Sdl.KeepsStrings first.toList second.toList)
    (parsed : Sdl.parse first.toList = .ok document)
    (parsed' : Sdl.parse second.toList = .ok document')
    (defined : Sdl.define document.types = .ok schema)
    (defined' : Sdl.define document'.types = .ok schema') {repeated : Sdl.TypeDecl}
    (isFirst : FirstWith (fun declaration : Sdl.TypeDecl =>
      declaration.name.value ∈ Sdl.typeNames document.types) document'.types repeated) :
    ∃ declared ∈ document.types, declared.name.value = repeated.name.value ∧
      Sdl.load ⟨sourceName, first ++ "\n" ++ second⟩ = .error (.refused
        ⟨sourceName, first ++ "\n" ++ second⟩ (.duplicateType
          (Sdl.moved (second.toList.length + 1) declared.name) repeated.name)) := by
  obtain ⟨known, before, after, split, none⟩ := isFirst
  obtain ⟨declared, mem, same⟩ := List.mem_map.mp known
  refine ⟨declared, mem, same, Sdl.load_eq_error_iff.mpr
    (.inr ⟨_, parse_append keeps parsed parsed', ?_⟩)⟩
  rw [split] at defined'
  rw [Sdl.types_joined, split]
  exact Sdl.define_joined_eq_error defined defined' (List.forall_mem_map.mpr none) mem same

/-- Two texts that each load, declare no standard scalar and do not close a block string of
the first in the second are joined: if they declare no name in common, the joined text
loads, and what is generated from it is what is generated from the one and then what is
generated from the other. If they do, it is refused for the first type of the second text
that the first one declares too. -/
theorem generate_joined_sources
    (keeps : Sdl.KeepsStrings first.toList second.toList)
    (parsed : Sdl.parse first.toList = .ok document)
    (parsed' : Sdl.parse second.toList = .ok document')
    (loaded : Sdl.load ⟨sourceName, first⟩ = .ok schema)
    (loaded' : Sdl.load ⟨sourceName, second⟩ = .ok schema')
    (plain : ∀ standard : StandardScalar, standard.name ∉ Sdl.typeNames document.types)
    (plain' : ∀ standard : StandardScalar, standard.name ∉ Sdl.typeNames document'.types) :
    let joined : Text.Source := ⟨sourceName, first ++ "\n" ++ second⟩
    ((∀ name ∈ Sdl.typeNames document'.types, name ∉ Sdl.typeNames document.types) →
      (∃ whole, Sdl.load joined = .ok whole) ∧
      ∀ moduleName spare generated generated',
        generateTypesFromSource first ⟨moduleName, { spare }⟩ = .ok generated →
        generateTypesFromSource second ⟨moduleName, { spare }⟩ = .ok generated' →
        generateTypesFromSource joined.text ⟨moduleName, { spare }⟩ =
          .ok ⟨generated.moduleName, generated.content ++ generated'.content⟩) ∧
    ((∃ name ∈ Sdl.typeNames document'.types, name ∈ Sdl.typeNames document.types) →
      ∃ declared repeated,
        FirstWith (fun declaration : Sdl.TypeDecl =>
          declaration.name.value ∈ Sdl.typeNames document.types) document'.types repeated ∧
        declared ∈ document.types ∧ declared.name.value = repeated.name.value ∧
        Sdl.load joined = .error (.refused joined (.duplicateType
          (Sdl.moved (second.toList.length + 1) declared.name) repeated.name))) := by
  intro joined
  have defined := define_of_load parsed loaded
  have defined' := define_of_load parsed' loaded'
  constructor
  · intro apart
    constructor
    · obtain ⟨-, -, whole, -, -, loadedWhole, -⟩ :=
        exists_load_joined keeps parsed parsed' defined defined' plain plain' apart
      exact ⟨whole, loadedWhole⟩
    · intro moduleName spare generated generated' succeeds succeeds'
      obtain ⟨_, loaded, generates⟩ := generateTypesFromSource_eq_ok_iff.mp succeeds
      obtain ⟨_, loaded', generates'⟩ := generateTypesFromSource_eq_ok_iff.mp succeeds'
      obtain ⟨definitions, definitions', whole, content, content', loadedWhole, contentWhole⟩ :=
        exists_load_joined keeps parsed parsed' (define_of_load parsed loaded)
          (define_of_load parsed' loaded') plain plain' apart
      exact generateTypesFromSource_eq_ok_iff.mpr
        ⟨whole, loadedWhole, generate_joined content content' contentWhole generates generates'⟩
  · rintro ⟨name, mem, shared⟩
    obtain ⟨declaration, listed, rfl⟩ := List.mem_map.mp mem
    obtain ⟨repeated, isFirst⟩ := (FirstWith.exists_iff
      (p := fun declaration : Sdl.TypeDecl =>
        declaration.name.value ∈ Sdl.typeNames document.types)).mpr ⟨declaration, listed, shared⟩
    obtain ⟨declared, mem, same, refused⟩ :=
      load_joined_eq_error keeps parsed parsed' defined defined' isFirst
    exact ⟨declared, repeated, isFirst, mem, same, refused⟩

end Sources

/-- A type with a description, and quotes in a comment behind it. -/
def describedText : String := "\"\"\"One\"\"\" type A \x7bf: Int\x7d # \"\"\""

theorem closesBlocks_describedText : Sdl.ClosesBlocks describedText.toList := by
  have split : describedText.toList = '"' :: '"' :: '"' ::
      ("One\"\"\"".toList ++ (" type A \x7bf: Int\x7d ".toList ++ '#' :: " \"\"\"".toList)) := by
    decide
  have comment : Sdl.skipFrom true " \"\"\"".toList = [] := by decide
  have isWord : Sdl.IsWord " type A \x7bf: Int\x7d " := by decide
  have plain : ∀ c ∈ " type A \x7bf: Int\x7d ".toList, Sdl.IsPlain c :=
    fun c mem => (isWord.2 c mem).1
  rw [split]
  refine .block (by rfl) ?_
  exact (Sdl.ClosesBlocks.append_iff plain).mpr (.comment (comment ▸ .nil))

/-- Behind a text with a described type and quotes in its last comment, a text of other
types is generated from as if it stood alone. A text that declares the type again is
refused. -/
theorem described_types_are_joined :
    let second := "\"\"\"Two\"\"\" type B \x7bg: B\x7d"
    let third := "type C type A"
    (∃ generated generated',
      generateTypesFromSource describedText ⟨none, {}⟩ = .ok generated ∧
      generateTypesFromSource second ⟨none, {}⟩ = .ok generated' ∧
      generateTypesFromSource (describedText ++ "\n" ++ second) ⟨none, {}⟩ =
        .ok ⟨generated.moduleName, generated.content ++ generated'.content⟩) ∧
    ∃ declared repeated, Sdl.load ⟨Sdl.defaultSourceName, describedText ++ "\n" ++ third⟩ =
      .error (.refused ⟨Sdl.defaultSourceName, describedText ++ "\n" ++ third⟩
        (.duplicateType declared repeated)) := by
  intro second third
  have keeps {text : List Char} : Sdl.KeepsStrings describedText.toList text :=
    .inl closesBlocks_describedText
  have parsed : Sdl.parse describedText.toList =
      .ok [.type ⟨⟨"A", 16⟩, false, .object [⟨⟨"f", 13⟩, .named "Int"⟩] []⟩ []] := by
    decide +kernel
  have parsed' : Sdl.parse second.toList =
      .ok [.type ⟨⟨"B", 8⟩, false, .object [⟨⟨"g", 5⟩, .named "B"⟩] []⟩ []] := by
    decide +kernel
  have parsed'' : Sdl.parse third.toList = .ok
      [.type ⟨⟨"C", 8⟩, false, .object [] []⟩ [], .type ⟨⟨"A", 1⟩, false, .object [] []⟩ []] := by
    decide +kernel
  obtain ⟨generated, succeeds⟩ : ∃ g, generateTypesFromSource describedText ⟨none, {}⟩ = .ok g :=
    ⟨_, generateTypesFromSource_of_parse parsed rfl rfl⟩
  obtain ⟨generated', succeeds'⟩ : ∃ g, generateTypesFromSource second ⟨none, {}⟩ = .ok g :=
    ⟨_, generateTypesFromSource_of_parse parsed' rfl rfl⟩
  obtain ⟨schema, loaded, -⟩ := generateTypesFromSource_eq_ok_iff.mp succeeds
  obtain ⟨schema', loaded', -⟩ := generateTypesFromSource_eq_ok_iff.mp succeeds'
  obtain ⟨schema'', loaded''⟩ : ∃ schema, Sdl.load ⟨Sdl.defaultSourceName, third⟩ = .ok schema :=
    ⟨_, Sdl.load_eq_ok_iff.mpr ⟨_, parsed'', rfl⟩⟩
  have apart := (generate_joined_sources keeps parsed parsed' loaded loaded'
    (by rintro ⟨⟩ <;> decide) (by rintro ⟨⟩ <;> decide)).1 (by decide)
  have shared := (generate_joined_sources keeps parsed parsed'' loaded loaded''
    (by rintro ⟨⟩ <;> decide) (by rintro ⟨⟩ <;> decide)).2 (by decide)
  constructor
  · exact ⟨generated, generated', succeeds, succeeds', apart.2 none _ _ _ succeeds succeeds'⟩
  · obtain ⟨declared, repeated, -, -, -, refused⟩ := shared
    exact ⟨_, _, refused⟩

/-- Three quotes that are an empty string and the begin of a description. -/
def openText : String := "type A \x7bf(x: Int = \"\"\"d\" y: Int): Int\x7d"

/-- A description that can close a block string. -/
def closingText : String := "\"\"\"e\"\"\" type B"

theorem parse_openText : Sdl.parse openText.toList =
    .ok [.type ⟨⟨"A", 33⟩, false, .object [⟨⟨"f", 30⟩, .named "Int"⟩] []⟩ []] := by
  decide +kernel

theorem parse_closingText :
    Sdl.parse closingText.toList = .ok [.type ⟨⟨"B", 1⟩, false, .object [] []⟩ []] := by
  decide +kernel

/-- A block string that the first text leaves open is read as an empty string there, with a
description behind it. In the joined text the description of the second one closes it. -/
theorem open_block_string_is_not_joined :
    let joined : Text.Source := ⟨Sdl.defaultSourceName, openText ++ "\n" ++ closingText⟩
    (∃ document, Sdl.parse openText.toList = .ok document ∧
      Sdl.typeNames document.types = ["A"]) ∧
    (∃ document, Sdl.parse closingText.toList = .ok document ∧
      Sdl.typeNames document.types = ["B"]) ∧
    (∃ generated, generateTypesFromSource openText ⟨none, {}⟩ = .ok generated) ∧
    (∃ generated, generateTypesFromSource closingText ⟨none, {}⟩ = .ok generated) ∧
    Sdl.load joined = .error (.refused joined (.offGrammar 11)) := by
  intro joined
  have refused : Sdl.parse joined.text.toList = .error (.offGrammar 11) := by
    decide +kernel
  refine ⟨⟨_, parse_openText, rfl⟩, ⟨_, parse_closingText, rfl⟩, ?first, ?second, ?joined⟩
  case first => exact ⟨_, generateTypesFromSource_of_parse parse_openText rfl rfl⟩
  case second => exact ⟨_, generateTypesFromSource_of_parse parse_closingText rfl rfl⟩
  case joined => exact Sdl.load_eq_error_iff.mpr (.inl refused)

end SchemaTypings
