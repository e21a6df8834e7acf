import HostDecl.Interface.Load
import HostDecl.Proofs.Reads

/-!
# The format of descriptions

Here stands what a table has to look like to describe an interface (`Description.WellFormed`), which
interface it then describes (`Description.Describes`), and which of its defects comes first if it
describes none (`Description.Defect`). All three are said of the table as a whole; how a description
is read plays no part in them.

The headings of all entries come before the payloads: a name, and a kind that is not known or a name
that comes twice in a later entry, are defects before the type of a member in an earlier one.
-/

namespace HostDecl

namespace Description

open Toml (Table Value)

/-! ## What stands under a key -/

/-- Text that is not empty. -/
def TextAt (t : Table) (key text : String) : Prop :=
  t.get? key = some (.text text) ∧ text ≠ ""

/-- An array of tables. A missing key stands for none. -/
def TablesAt (t : Table) (key : String) (tables : List Table) : Prop :=
  t.get? key = none ∧ tables = [] ∨ t.get? key = some (.array (tables.map .table))

/-- The name of the interface. -/
def NameAt (defaultName : String) (t : Table) (name : String) : Prop :=
  t.get? "name" = none ∧ name = defaultName ∨ t.get? "name" = some (.text name)

/-- The entries, one for each declaration. -/
def EntriesAt (t : Table) (entries : List Value) : Prop :=
  t.get? "declaration" = none ∧ entries = [] ∨ t.get? "declaration" = some (.array entries)

/-! ## Headings -/

def Kind.text : Kind → String
  | .aliasOf => "alias"
  | .struct => "struct"
  | .enum => "enum"
  | .function => "function"

/-- The entry at an index has a name and a kind. -/
structure Heads (entry : Value) (index : Nat) (h : Heading) : Prop where
  entry : entry = .table h.table
  index : h.index = index
  name : TextAt h.table "name" h.name
  kind : h.table.get? "kind" = some (.text h.kind.text)

/-- All entries have a name and a kind, and no two have the same name. -/
structure Headings (entries : List Value) (hs : List Heading) : Prop where
  heads : List.Forall₂ (fun entry h => Heads entry.1 entry.2 h) entries.zipIdx hs
  distinct : (hs.map Heading.name).Nodup

/-! ## Types -/

/-- What a type name stands for: the alias, struct or enum with exactly that name, wherever it
stands, and otherwise the atom with that spelling. -/
inductive Names (hs : List Heading) : String → TypeRef → Prop
  | decl {h : Heading} (hmem : h ∈ hs) (hkind : h.kind ≠ .function) : Names hs h.name (.decl h.id)
  | atom {name : String} {a : Atom} (hnone : ∀ h ∈ hs, h.kind ≠ .function → h.name ≠ name)
      (ha : name.toLower = a.text) : Names hs name (.atom a)

def TypeAt (hs : List Heading) (value : Option Value) (type : TypeRef) : Prop :=
  ∃ name, value = some (.text name) ∧ Names hs name type

/-- Text that names a type. -/
def IsType (hs : List Heading) (value : Option Value) : Prop :=
  ∃ name, value = some (.text name) ∧
    ((∃ h ∈ hs, h.kind ≠ .function ∧ h.name = name) ∨ ∃ a : Atom, name.toLower = a.text)

/-! ## Members and arguments -/

structure FieldAt (hs : List Heading) (t : Table) (f : Field) : Prop where
  name : TextAt t "name" f.name
  type : TypeAt hs (t.get? "type") f.type

def FieldsAt (hs : List Heading) (t : Table) (key : String) (fields : List Field) : Prop :=
  ∃ tables, TablesAt t key tables ∧ List.Forall₂ (FieldAt hs) tables fields

/-- A table with a name and a type. -/
def IsField (hs : List Heading) (t : Table) : Prop :=
  (∃ name, TextAt t "name" name) ∧ IsType hs (t.get? "type")

def AreFields (hs : List Heading) (t : Table) (key : String) : Prop :=
  ∃ tables, TablesAt t key tables ∧ ∀ table ∈ tables, IsField hs table

/-! ## Payloads -/

/-- Some variants, all of them text. -/
def VariantsAt (t : Table) (variants : List String) : Prop :=
  t.get? "variants" = some (.array (variants.map .text)) ∧ variants ≠ []

/-- The result of a function, if it has one. -/
inductive ResultAt (hs : List Heading) (t : Table) : Option TypeRef → Prop
  | none (hret : t.get? "ret" = none) : ResultAt hs t none
  | some {value : Value} {type : TypeRef} (hret : t.get? "ret" = some value)
      (htype : TypeAt hs (some value) type) : ResultAt hs t (some type)

/-- What the entry with a heading declares. -/
def EntityAt (hs : List Heading) (h : Heading) (e : Entity) : Prop :=
  match h.kind with
  | .aliasOf => ∃ target, TypeAt hs (h.table.get? "to") target ∧ e = .aliasOf target
  | .struct => ∃ members, FieldsAt hs h.table "members" members ∧ e = .struct members
  | .enum => ∃ variants, VariantsAt h.table variants ∧ e = .enum variants
  | .function => ∃ args, FieldsAt hs h.table "args" args ∧
      ∃ result, ResultAt hs h.table result ∧ e = .function args result

/-- The payload is well formed. -/
def IsPayload (hs : List Heading) (h : Heading) : Prop :=
  match h.kind with
  | .aliasOf => IsType hs (h.table.get? "to")
  | .struct => AreFields hs h.table "members"
  | .enum => ∃ variants, VariantsAt h.table variants
  | .function => AreFields hs h.table "args" ∧
      ∀ value, h.table.get? "ret" = some value → IsType hs (some value)

/-! ## Descriptions -/

/-- The declaration of an entry carries the position of the entry as its ident. -/
structure DeclAt (hs : List Heading) (h : Heading) (d : Decl) : Prop where
  id : d.id = ⟨h.index⟩
  name : d.name = h.name
  entity : EntityAt hs h d.entity

/-- The table describes the interface, with one declaration for each entry in the same order. -/
def Describes (defaultName : String) (t : Table) (i : Interface) : Prop :=
  NameAt defaultName t i.name ∧ ∃ entries hs, EntriesAt t entries ∧ Headings entries hs ∧
    List.Forall₂ (DeclAt hs) hs i.decls

/-- A name of the interface is text. -/
def IsNamed (t : Table) : Prop :=
  ∀ value, t.get? "name" = some value → ∃ name, value = .text name

/-- The table has the format of a description. -/
def WellFormed (t : Table) : Prop :=
  IsNamed t ∧ ∃ entries hs, EntriesAt t entries ∧ Headings entries hs ∧ ∀ h ∈ hs, IsPayload hs h

/-! ## Defects -/

inductive TypeDefect (path : String) (hs : List Heading) (owner : String) :
    Option Value → Fault → Prop
  | notText {value : Option Value} (h : ∀ name, value ≠ some (.text name)) :
      TypeDefect path hs owner value (.malformedModule path (.typeNotText owner))
  | unknown {name : String} (h : ¬ IsType hs (some (.text name))) :
      TypeDefect path hs owner (some (.text name)) (.unknownType name owner)

inductive FieldDefect (path : String) (hs : List Heading) (h : Heading) : Table → Fault → Prop
  | name {t : Table} (hname : ∀ name, ¬ TextAt t "name" name) :
      FieldDefect path hs h t (.malformedModule path (.missingText h.index "name"))
  | type {t : Table} {name : String} {f : Fault} (hname : TextAt t "name" name)
      (htype : TypeDefect path hs h.name (t.get? "type") f) : FieldDefect path hs h t f

inductive FieldsDefect (path : String) (hs : List Heading) (h : Heading) (key : String) :
    Fault → Prop
  | notTables (htables : ∀ tables, ¬ TablesAt h.table key tables) :
      FieldsDefect path hs h key (.malformedModule path (.fieldsNotTables key h.name))
  | field {tables : List Table} {f : Fault} (htables : TablesAt h.table key tables)
      (hfield : FirstIn (IsField hs) (FieldDefect path hs h) tables f) :
      FieldsDefect path hs h key f

inductive VariantsDefect (path : String) (h : Heading) : Fault → Prop
  | notText {value : Value} (hvalue : h.table.get? "variants" = some value)
      (hvariants : ∀ variants : List String, value ≠ .array (variants.map .text)) :
      VariantsDefect path h (.malformedModule path (.variantsNotText h.name))
  | none (hvariants : h.table.get? "variants" = none ∨
      h.table.get? "variants" = some (.array [])) :
      VariantsDefect path h (.malformedModule path (.noVariants h.name))

/-- The first defect of a payload. The arguments of a function come before its result. -/
def PayloadDefect (path : String) (hs : List Heading) (h : Heading) (f : Fault) : Prop :=
  match h.kind with
  | .aliasOf => TypeDefect path hs h.name (h.table.get? "to") f
  | .struct => FieldsDefect path hs h "members" f
  | .enum => VariantsDefect path h f
  | .function => FieldsDefect path hs h "args" f ∨ AreFields hs h.table "args" ∧
      ∃ value, h.table.get? "ret" = some value ∧ TypeDefect path hs h.name (some value) f

/-- The first defect of a heading, where some names are taken. -/
inductive HeadingDefect (path : String) (index : Nat) (taken : List String) (entry : Value) :
    Fault → Prop
  | notTable (hentry : ∀ t, entry ≠ .table t) :
      HeadingDefect path index taken entry (.malformedModule path (.notTable index))
  | name {t : Table} (hentry : entry = .table t) (hname : ∀ name, ¬ TextAt t "name" name) :
      HeadingDefect path index taken entry (.malformedModule path (.missingText index "name"))
  | kind {t : Table} {name : String} (hentry : entry = .table t) (hname : TextAt t "name" name)
      (hkind : ∀ kind, ¬ TextAt t "kind" kind) :
      HeadingDefect path index taken entry (.malformedModule path (.missingText index "kind"))
  | unknownKind {t : Table} {name text : String} (hentry : entry = .table t)
      (hname : TextAt t "name" name) (htext : TextAt t "kind" text)
      (hkind : ∀ kind : Kind, text ≠ kind.text) :
      HeadingDefect path index taken entry (.malformedModule path (.unknownKind name text))
  | redeclared {h : Heading} (hh : Heads entry index h) (htaken : h.name ∈ taken) :
      HeadingDefect path index taken entry (.redeclared h.name)

/-- The first defect of a table that describes no interface. A defect of a heading comes before all
those of payloads. -/
inductive Defect (path : String) (t : Table) : Fault → Prop
  | name {value : Value} (hname : t.get? "name" = some value) (htext : ∀ name, value ≠ .text name) :
      Defect path t (.malformedModule path .nameNotText)
  | entries {value : Value} (hname : IsNamed t) (hentries : t.get? "declaration" = some value)
      (harray : ∀ entries, value ≠ .array entries) :
      Defect path t (.malformedModule path .declarationsNotArray)
  | heading {before after : List Value} {entry : Value} {hs : List Heading} {f : Fault}
      (hname : IsNamed t) (hentries : EntriesAt t (before ++ entry :: after))
      (hbefore : Headings before hs)
      (hf : HeadingDefect path before.length (hs.map Heading.name) entry f) : Defect path t f
  | payload {entries : List Value} {hs : List Heading} {f : Fault} (hname : IsNamed t)
      (hentries : EntriesAt t entries) (hheadings : Headings entries hs)
      (hf : FirstIn (IsPayload hs) (PayloadDefect path hs) hs f) : Defect path t f

/-! ## What is well formed describes something -/

section

variable {hs : List Heading} {h : Heading} {t : Table}

theorem exists_names_iff {name : String} : (∃ type, Names hs name type) ↔
    (∃ h ∈ hs, h.kind ≠ .function ∧ h.name = name) ∨ ∃ a : Atom, name.toLower = a.text := by
  constructor
  · rintro ⟨_, ⟨hmem, hkind⟩ | ⟨hnone, ha⟩⟩
    · exact .inl ⟨_, hmem, hkind, rfl⟩
    · exact .inr ⟨_, ha⟩
  · intro hname
    by_cases hdecl : ∃ h ∈ hs, h.kind ≠ .function ∧ h.name = name
    · obtain ⟨h, hmem, hkind, rfl⟩ := hdecl
      exact ⟨_, .decl hmem hkind⟩
    · obtain ⟨a, ha⟩ := hname.resolve_left hdecl
      exact ⟨_, .atom (fun h hmem hkind hname => hdecl ⟨h, hmem, hkind, hname⟩) ha⟩

theorem exists_typeAt_iff {value : Option Value} :
    (∃ type, TypeAt hs value type) ↔ IsType hs value := by
  unfold TypeAt IsType
  rw [exists_comm]
  refine exists_congr fun name => ?_
  rw [exists_and_left, exists_names_iff]

theorem exists_fieldAt_iff : (∃ f, FieldAt hs t f) ↔ IsField hs t := by
  rw [IsField, ← exists_typeAt_iff]
  constructor
  · rintro ⟨f, hname, htype⟩
    exact ⟨⟨_, hname⟩, _, htype⟩
  · rintro ⟨⟨name, hname⟩, type, htype⟩
    exact ⟨⟨name, type⟩, hname, htype⟩

theorem exists_fieldsAt_iff {key : String} :
    (∃ fields, FieldsAt hs t key fields) ↔ AreFields hs t key := by
  unfold FieldsAt AreFields
  rw [exists_comm]
  refine exists_congr fun tables => ?_
  rw [exists_and_left, exists_forall₂_iff]
  simp only [exists_fieldAt_iff]

theorem exists_resultAt_iff : (∃ result, ResultAt hs t result) ↔
    ∀ value, t.get? "ret" = some value → IsType hs (some value) := by
  constructor
  · rintro ⟨_, hret | ⟨hret, htype⟩⟩ value hvalue
    · rw [hret] at hvalue
      cases hvalue
    · obtain rfl := Option.some.inj (hret.symm.trans hvalue)
      exact exists_typeAt_iff.mp ⟨_, htype⟩
  · intro hall
    cases hret : t.get? "ret" with
    | none => exact ⟨_, .none hret⟩
    | some value =>
        obtain ⟨type, htype⟩ := exists_typeAt_iff.mpr (hall value hret)
        exact ⟨_, .some hret htype⟩

theorem exists_entityAt_iff : (∃ e, EntityAt hs h e) ↔ IsPayload hs h := by
  unfold EntityAt IsPayload
  cases h.kind with
  | aliasOf =>
      rw [← exists_typeAt_iff]
      exact ⟨fun ⟨_, target, h, _⟩ => ⟨target, h⟩, fun ⟨target, h⟩ => ⟨_, target, h, rfl⟩⟩
  | struct =>
      rw [← exists_fieldsAt_iff]
      exact ⟨fun ⟨_, members, h, _⟩ => ⟨members, h⟩, fun ⟨members, h⟩ => ⟨_, members, h, rfl⟩⟩
  | enum =>
      exact ⟨fun ⟨_, variants, h, _⟩ => ⟨variants, h⟩, fun ⟨variants, h⟩ => ⟨_, variants, h, rfl⟩⟩
  | function =>
      dsimp only
      rw [← exists_fieldsAt_iff, ← exists_resultAt_iff]
      exact ⟨fun ⟨_, args, hargs, result, hresult, _⟩ => ⟨⟨args, hargs⟩, result, hresult⟩,
        fun ⟨⟨args, hargs⟩, result, hresult⟩ => ⟨_, args, hargs, result, hresult, rfl⟩⟩

theorem exists_declAt_iff : (∃ d, DeclAt hs h d) ↔ IsPayload hs h := by
  rw [← exists_entityAt_iff]
  constructor
  · rintro ⟨d, hd⟩
    exact ⟨_, hd.entity⟩
  · rintro ⟨e, he⟩
    exact ⟨⟨⟨h.index⟩, h.name, e⟩, rfl, rfl, he⟩

theorem exists_nameAt_iff (defaultName : String) :
    (∃ name, NameAt defaultName t name) ↔ IsNamed t := by
  unfold IsNamed NameAt
  cases hname : t.get? "name" with
  | none => simp
  | some value => simp [eq_comm]

/-- A table that has the format of a description describes an interface, and no other does. -/
theorem exists_describes_iff {defaultName : String} :
    (∃ i, Describes defaultName t i) ↔ WellFormed t := by
  unfold WellFormed Describes
  rw [← exists_nameAt_iff defaultName]
  constructor
  · rintro ⟨i, hname, entries, hs, hentries, hheadings, hdecls⟩
    have hpayloads := exists_forall₂_iff.mp ⟨_, hdecls⟩
    exact ⟨⟨_, hname⟩, entries, hs, hentries, hheadings,
      fun h hh => exists_declAt_iff.mp (hpayloads h hh)⟩
  · rintro ⟨⟨name, hname⟩, entries, hs, hentries, hheadings, hpayloads⟩
    obtain ⟨decls, hdecls⟩ :=
      exists_forall₂_iff.mpr fun h hh => exists_declAt_iff.mpr (hpayloads h hh)
    exact ⟨⟨name, decls⟩, hname, entries, hs, hentries, hheadings, hdecls⟩

end

end Description

end HostDecl
