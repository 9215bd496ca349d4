import SchemaTypings.Proofs.Loading.Declarations

/-!
# Definitions of a document

Turning the type declarations of a document into a schema fails at the first
declaration that is an extension, repeats a name, has no counterpart among the
definitions, or declares two fields of one name; the reasons are looked at in this
order. Otherwise the schema lists the standard scalars that are not declared, and
then one definition for each declaration.
-/

namespace SchemaTypings.Sdl

open Text Traversal

/-! ### Runs over declarations -/

section DefineFrom

variable {earlier declarations : List TypeDecl} {schema result : Schema}

theorem defineFrom_seenNames_cons {declaration : TypeDecl} {rest : List TypeDecl} :
    defineFrom (seenNames earlier) schema (declaration :: rest) =
      (accept (seenNames earlier) declaration).bind fun definition =>
        defineFrom (seenNames (earlier ++ [declaration])) (schema.insert definition) rest := by
  rw [defineFrom_cons]
  simp [seenNames]

/-- A new name keeps the names distinct. -/
theorem nodup_typeNames_append {declaration : TypeDecl} (distinct : (typeNames earlier).Nodup)
    (fresh : declaration.name.value ∉ typeNames earlier) :
    (typeNames (earlier ++ [declaration])).Nodup := by
  simp only [typeNames, List.map_append, List.map_singleton, List.nodup_append]
  refine ⟨distinct, by simp, fun name mem last eq => ?_⟩
  rw [List.mem_singleton] at eq
  rintro rfl
  exact fresh (eq ▸ mem)

/-- A run fails at the first declaration that offends, with its fault. -/
theorem defineFrom_eq_error_iff {fault : Fault} (distinct : (typeNames earlier).Nodup) :
    defineFrom (seenNames earlier) schema declarations = .error fault ↔
      ∃ before declaration after, declarations = before ++ declaration :: after ∧
        CleanAfter earlier before ∧ DeclarationFault (earlier ++ before) declaration fault := by
  induction declarations generalizing earlier schema with
  | nil => simp [defineFrom]
  | cons declaration rest ih =>
    rw [defineFrom_seenNames_cons]
    cases accepted : accept (seenNames earlier) declaration with
    | error found =>
      have faulty := (accept_eq_error_iff distinct).mp accepted
      have offends := (exists_declarationFault_iff distinct).mp ⟨found, faulty⟩
      rw [exists_split_cons_iff, List.append_nil, ← accept_eq_error_iff distinct, accepted]
      constructor
      · rintro ⟨⟩
        exact .inl ⟨cleanAfter_nil, rfl⟩
      · rintro (⟨-, same⟩ | ⟨before, other, after, -, clean, -⟩)
        · cases same
          rfl
        · exact absurd offends (cleanAfter_cons.mp clean).1
    | ok definition =>
      have sound := not_offends_of_accept distinct accepted
      have fresh := (accept_eq_ok_iff.mp accepted).1
      rw [exists_split_cons_iff, List.append_nil, ← accept_eq_error_iff distinct, accepted]
      refine (ih (nodup_typeNames_append distinct fresh)).trans ?_
      simp [cleanAfter_cons, sound]

/-- A run succeeds only if no declaration offends. -/
theorem cleanAfter_of_defineFrom (distinct : (typeNames earlier).Nodup)
    (defined : defineFrom (seenNames earlier) schema declarations = .ok result) :
    CleanAfter earlier declarations := by
  induction declarations generalizing earlier schema with
  | nil => exact cleanAfter_nil
  | cons declaration rest ih =>
    rw [defineFrom_seenNames_cons] at defined
    cases accepted : accept (seenNames earlier) declaration with
    | error fault =>
      rw [accepted] at defined
      cases defined
    | ok definition =>
      rw [accepted] at defined
      have fresh := (accept_eq_ok_iff.mp accepted).1
      exact cleanAfter_cons.mpr ⟨not_offends_of_accept distinct accepted,
        ih (nodup_typeNames_append distinct fresh) defined⟩

/-- A run succeeds with one definition more for each declaration, as long as the schema it
begins with holds the definitions of earlier declarations and no other that could be in
the way. -/
theorem defineFrom_eq_ok_iff (held : ∀ name ∈ typeNames earlier, name ∈ schema.names)
    (clear : ∀ declaration ∈ declarations, declaration.name.value ∈ schema.names →
      declaration.name.value ∈ typeNames earlier) :
    defineFrom (seenNames earlier) schema declarations = .ok result ↔
      ∃ definitions, List.Forall₂ Describes declarations definitions ∧
        result.toList = schema.toList ++ definitions := by
  induction declarations generalizing earlier schema with
  | nil => simp [defineFrom, NamedList.ext_iff, eq_comm]
  | cons declaration rest ih =>
    rw [defineFrom_seenNames_cons]
    cases accepted : accept (seenNames earlier) declaration with
    | error fault =>
      refine ⟨fun h => (by cases h), ?_⟩
      rintro ⟨_, _ | ⟨describes, _⟩, whole⟩
      -- A declaration that can be described fails only because its name is taken.
      have taken : declaration.name.value ∈ typeNames earlier := by
        by_contra fresh
        rw [accept_eq_ok_iff.mpr ⟨fresh, describes⟩] at accepted
        cases accepted
      have distinct := result.nodup_names
      rw [NamedList.names, whole, List.map_append, List.nodup_append] at distinct
      exact absurd describes.name_eq.symm (distinct.2.2 _ (held _ taken) _ List.mem_cons_self)
    | ok definition =>
      obtain ⟨fresh, describes⟩ := accept_eq_ok_iff.mp accepted
      have name_eq : Named.name definition = declaration.name.value := describes.name_eq
      have absent : Named.name definition ∉ schema.names := fun mem =>
        fresh (clear declaration List.mem_cons_self (name_eq ▸ mem))
      have names : (schema.insert definition).names =
          schema.names ++ [declaration.name.value] := by
        rw [NamedList.names_insert, if_neg absent, name_eq]
      refine (ih ?_ ?_).trans ?_
      · intro name mem
        rw [names]
        simp only [typeNames, List.map_append, List.map_singleton, List.mem_append] at mem ⊢
        exact mem.imp_left (held name)
      · intro other mem taken
        rw [names] at taken
        simp only [typeNames, List.map_append, List.map_singleton, List.mem_append] at taken ⊢
        exact taken.imp_left (clear other (List.mem_cons_of_mem _ mem))
      · rw [NamedList.toList_insert_of_not_mem absent]
        constructor
        · rintro ⟨definitions, described, whole⟩
          exact ⟨definition :: definitions, .cons describes described, by simpa using whole⟩
        · rintro ⟨_, _ | ⟨describes', described⟩, whole⟩
          have same := accept_eq_ok_iff.mpr ⟨fresh, describes'⟩
          rw [accepted] at same
          cases same
          exact ⟨_, described, by simpa using whole⟩

/-- A run over two lists is a run over the first and then over the second. -/
theorem defineFrom_append {others : List TypeDecl} :
    defineFrom (seenNames earlier) schema (declarations ++ others) =
      (defineFrom (seenNames earlier) schema declarations).bind fun part =>
        defineFrom (seenNames (earlier ++ declarations)) part others := by
  induction declarations generalizing earlier schema with
  | nil => simp [defineFrom, Except.bind]
  | cons declaration rest ih =>
    rw [List.cons_append, defineFrom_seenNames_cons, defineFrom_seenNames_cons]
    cases accept (seenNames earlier) declaration with
    | error fault => rfl
    | ok definition => simpa [Except.bind] using @ih (earlier ++ [declaration]) _

end DefineFrom

/-- Definitions have the names of their declarations, in order. -/
theorem names_of_describes {declarations : List TypeDecl} {definitions : List Definition}
    (described : List.Forall₂ Describes declarations definitions) :
    definitions.map Named.name = typeNames declarations := by
  induction described with
  | nil => rfl
  | cons describes _ ih => exact List.cons_eq_cons.mpr ⟨describes.name_eq, ih⟩

/-! ### Standard scalars -/

/-- The standard scalars whose names are not among those given, as definitions. -/
def standardBeside (names : List String) : List Definition :=
  (StandardScalar.all.filter fun standard => standard.name ∉ names).map fun standard =>
    .scalar (.ofStandard standard)

theorem names_standardBeside (names : List String) :
    (standardBeside names).map Named.name =
      (StandardScalar.all.filter fun standard => standard.name ∉ names).map
        StandardScalar.name := by
  rw [standardBeside, List.map_map]
  rfl

theorem nodup_standardBeside (names : List String) :
    ((standardBeside names).map Named.name).Nodup := by
  have all : (StandardScalar.all.map StandardScalar.name).Nodup := by decide
  rw [names_standardBeside]
  exact all.sublist (List.filter_sublist.map _)

/-- The schema that the definitions of a document are added to. -/
def standardSchema (declarations : List TypeDecl) : Schema :=
  .ofList (standardBeside (typeNames declarations))

/-- A document is defined from the standard scalars on that it leaves out. -/
theorem define_eq_defineFrom (declarations : List TypeDecl) :
    define declarations = defineFrom (seenNames []) (standardSchema declarations) declarations := by
  have missing : missingScalars declarations =
      StandardScalar.all.filter fun standard => standard.name ∉ typeNames declarations := by
    refine List.filter_congr fun standard _ => Bool.eq_iff_iff.mpr ?_
    simp [typeNames]
  rw [define, missing]
  rfl

theorem toList_standardSchema (declarations : List TypeDecl) :
    (standardSchema declarations).toList = standardBeside (typeNames declarations) :=
  NamedList.toList_ofList (nodup_standardBeside _)

/-- A standard scalar is added only if no declaration has its name. -/
theorem not_mem_names_standardSchema {declarations : List TypeDecl} {declaration : TypeDecl}
    (mem : declaration ∈ declarations) :
    declaration.name.value ∉ (standardSchema declarations).names := by
  rw [NamedList.names, toList_standardSchema, names_standardBeside]
  intro standard
  obtain ⟨scalar, kept, same⟩ := List.mem_map.mp standard
  have absent : scalar.name ∉ typeNames declarations := by simpa using (List.mem_filter.mp kept).2
  exact absent (same ▸ List.mem_map_of_mem mem)

/-- The definitions of a document stand behind the standard scalars it does not declare. -/
theorem define_list_eq_ok_iff {declarations : List TypeDecl} {schema : Schema} :
    define declarations = .ok schema ↔
      ∃ definitions, List.Forall₂ Describes declarations definitions ∧
        schema.toList = standardBeside (typeNames declarations) ++ definitions := by
  rw [define_eq_defineFrom, ← toList_standardSchema]
  exact defineFrom_eq_ok_iff (by simp [typeNames]) fun declaration mem taken =>
    absurd taken (not_mem_names_standardSchema mem)

/-- Declarations of different names are defined by what they describe. -/
theorem exists_define_eq_ok {declarations : List TypeDecl} {definitions : List Definition}
    (described : List.Forall₂ Describes declarations definitions)
    (distinct : (typeNames declarations).Nodup) :
    ∃ schema, define declarations = .ok schema ∧
      schema.toList = standardBeside (typeNames declarations) ++ definitions := by
  let schema : Schema := ⟨standardBeside (typeNames declarations) ++ definitions, by
    rw [List.map_append, List.nodup_append, names_of_describes described]
    refine ⟨nodup_standardBeside _, distinct, ?_⟩
    rintro name standard other mem rfl
    rw [names_standardBeside] at standard
    obtain ⟨scalar, kept, rfl⟩ := List.mem_map.mp standard
    have absent : scalar.name ∉ typeNames declarations := by
      simpa using (List.mem_filter.mp kept).2
    exact absent mem⟩
  exact ⟨schema, define_list_eq_ok_iff.mpr ⟨definitions, described, rfl⟩, rfl⟩

/-- A document that is defined declares no name twice. -/
theorem nodup_typeNames_of_define {declarations : List TypeDecl} {schema : Schema}
    (defined : define declarations = .ok schema) : (typeNames declarations).Nodup := by
  obtain ⟨definitions, described, whole⟩ := define_list_eq_ok_iff.mp defined
  have distinct := schema.nodup_names
  rw [NamedList.names, whole, List.map_append, names_of_describes described] at distinct
  exact (List.nodup_append.mp distinct).2.1

/-- Whenever a document has a schema, each of its definitions was new when it was added. -/
theorem find?_before_defined {before after : List TypeDecl} {declaration : TypeDecl}
    {schema : Schema} (defined : define (before ++ declaration :: after) = .ok schema) :
    ∃ part, defineFrom [] (standardSchema (before ++ declaration :: after)) before = .ok part ∧
      part.find? declaration.name.value = none := by
  let declarations := before ++ declaration :: after
  have whole : defineFrom (seenNames []) (standardSchema declarations) declarations =
      .ok schema := (define_eq_defineFrom declarations).symm.trans defined
  have names (some : List TypeDecl) (sub : ∀ d ∈ some, d ∈ declarations) (result : Schema)
      (run : defineFrom (seenNames []) (standardSchema declarations) some = .ok result) :
      result.names = (standardSchema declarations).names ++ typeNames some := by
    obtain ⟨definitions, described, same⟩ :=
      (defineFrom_eq_ok_iff (by simp [typeNames]) fun d mem taken =>
        absurd taken (not_mem_names_standardSchema (sub d mem))).mp run
    rw [NamedList.names, same, List.map_append, names_of_describes described, NamedList.names]
  have distinct := schema.nodup_names
  rw [names declarations (fun _ mem => mem) schema whole] at distinct
  rw [show declarations = before ++ declaration :: after from rfl, defineFrom_append] at whole
  cases run : defineFrom (seenNames []) (standardSchema declarations) before with
  | error fault =>
    rw [run] at whole
    cases whole
  | ok part =>
    refine ⟨part, run, NamedList.find?_eq_none_iff.mpr ?_⟩
    rw [names before (fun d mem => List.mem_append_left _ mem) part run]
    simp only [declarations, typeNames, List.map_append, List.map_cons] at distinct ⊢
    rw [← List.append_assoc, List.nodup_append] at distinct
    exact fun mem => distinct.2.2 _ mem _ List.mem_cons_self rfl

/-! ### Loading -/

/-- A text is parsed to the document that it is read as, if nothing in it is refused. -/
theorem parse_eq_ok_iff {text : List Char} {items : Document} :
    parse text = .ok items ↔
      (∃ rest, (document text).result = some (items, rest)) ∧
        items.forM Item.check = .ok () := by
  unfold parse
  split
  · next failed => simp [failed]
  · next stuck found rest read =>
    rw [read, bind_eq_ok_iff]
    constructor
    · rintro ⟨_, clean, ⟨⟩⟩
      exact ⟨⟨rest, rfl⟩, clean⟩
    · rintro ⟨⟨_, ⟨⟩⟩, clean⟩
      exact ⟨(), clean, rfl⟩

/-- A source is loaded by parsing its text and then defining the types it declares. -/
theorem load_eq_ok_iff {source : Source} {schema : Schema} :
    load source = .ok schema ↔
      ∃ document, parse source.text.toList = .ok document ∧
        define document.types = .ok schema := by
  rw [load, mapError_eq_ok_iff]
  exact bind_eq_ok_iff

/-- A schema that is loaded has a definition for every standard name, if only the standard
scalar itself. -/
theorem standard_mem_names_of_load {source : Source} {schema : Schema}
    (loaded : load source = .ok schema) (standard : StandardScalar) :
    standard.name ∈ schema.names := by
  obtain ⟨document, -, defined⟩ := load_eq_ok_iff.mp loaded
  obtain ⟨definitions, described, whole⟩ := define_list_eq_ok_iff.mp defined
  rw [NamedList.names, whole, List.map_append, names_of_describes described,
    names_standardBeside, List.mem_append]
  by_cases declared : standard.name ∈ typeNames document.types
  · exact .inr declared
  · have listed : standard ∈ StandardScalar.all := by cases standard <;> decide
    exact .inl (List.mem_map_of_mem (List.mem_filter.mpr ⟨listed, by simpa using declared⟩))

/-- A text is refused for a fault in its declarations, or already while it is read. -/
theorem load_eq_error_iff {source : Source} {fault : Fault} :
    load source = .error (.refused source fault) ↔
      parse source.text.toList = .error fault ∨
        ∃ document, parse source.text.toList = .ok document ∧
          define document.types = .error fault := by
  unfold load schemaOf
  cases parsed : parse source.text.toList with
  | error other => simp [Except.mapError, bind, Except.bind]
  | ok document =>
    cases defined : define document.types <;> simp [Except.mapError, bind, Except.bind, defined]

/-! ### The main result -/

/-- Defining the types of a document fails exactly if one of its declarations offends, and
then with the fault of the first one that does. Otherwise the schema lists the standard
scalars that are not declared and then what the declarations describe, in order, and no
definition displaces another when it is added. -/
theorem define_document (document : Document) :
    ((∃ fault, define document.types = .error fault) ↔
      ∃ before declaration after, document.types = before ++ declaration :: after ∧
        Offends before declaration) ∧
    (∀ fault, define document.types = .error fault ↔
      ∃ before declaration after, document.types = before ++ declaration :: after ∧
        (¬ ∃ front first back, before = front ++ first :: back ∧ Offends front first) ∧
        DeclarationFault before declaration fault) ∧
    ∀ schema, define document.types = .ok schema ↔
      (∃ definitions, List.Forall₂ Describes document.types definitions ∧
        schema.toList = standardBeside (typeNames document.types) ++ definitions) ∧
      ∀ before declaration after, document.types = before ++ declaration :: after →
        ∃ part, defineFrom [] (standardSchema document.types) before = .ok part ∧
          part.find? declaration.name.value = none := by
  generalize document.types = declarations
  have error_iff (fault : Fault) : define declarations = .error fault ↔ _ :=
    define_eq_defineFrom declarations ▸ defineFrom_eq_error_iff (by simp [typeNames])
  simp only [CleanAfter, List.nil_append] at error_iff
  refine ⟨?_, error_iff, ?_⟩
  · constructor
    · rintro ⟨fault, failed⟩
      obtain ⟨before, declaration, after, split, -, faulty⟩ := (error_iff fault).mp failed
      exact ⟨before, declaration, after, split, faulty.offends⟩
    · intro offending
      cases outcome : define declarations with
      | error fault => exact ⟨fault, rfl⟩
      | ok schema =>
        rw [define_eq_defineFrom] at outcome
        exact absurd offending (cleanAfter_of_defineFrom (by simp [typeNames]) outcome)
  · intro schema
    rw [define_list_eq_ok_iff]
    refine ⟨fun h => ⟨h, ?_⟩, And.left⟩
    rintro before declaration after rfl
    exact find?_before_defined (define_list_eq_ok_iff.mpr h)

end SchemaTypings.Sdl
