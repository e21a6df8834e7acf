import HostDecl.Proofs.Interface.Format

/-!
# Loading follows the format

Each reader of a description accepts exactly what the format says and refuses everything else for
the first defect that there is. The lemmas go from single keys to whole tables (`reads_ofTable`),
and their proofs follow the readers step by step. `ofTable_follows_format` puts together what this
means for a description.
-/

namespace HostDecl

theorem Atom.text_injective : Function.Injective Atom.text := by
  have hall : ∀ a ∈ all, ∀ a' ∈ all, a.text = a'.text → a = a' := by decide
  exact fun a a' h => hall a a.mem_all a' a'.mem_all h

theorem Atom.ofText?_eq_some_iff {text : String} {a : Atom} :
    Atom.ofText? text = some a ↔ text.toLower = a.text := by
  constructor
  · intro h
    have htext : a.text = text.toLower := by simpa using List.find?_some h
    exact htext.symm
  · intro h
    have hfound : (Atom.ofText? text).isSome = true :=
      List.find?_isSome.mpr ⟨a, a.mem_all, beq_iff_eq.mpr h.symm⟩
    obtain ⟨a', ha'⟩ := Option.isSome_iff_exists.mp hfound
    have htext : a'.text = text.toLower := by simpa using List.find?_some ha'
    rw [← Atom.text_injective (htext.trans h)]
    exact ha'

namespace Description

open Toml (Table Value)

variable {path : String} {hs : List Heading}

/-! ## Text -/

theorem reads_requireText (index : Nat) (t : Table) (key : String) :
    Reads (requireText path index t key) (TextAt t key)
      (fun f => (∀ text, ¬ TextAt t key text) ∧
        f = .malformedModule path (.missingText index key)) := by
  unfold requireText TextAt
  split
  · rename_i content hget
    rw [hget]
    split
    · rename_i hempty
      rw [String.isEmpty_iff] at hempty
      exact Reads.error.congr (by simp [hempty]) (by simp [hempty])
    · rename_i hempty
      rw [String.isEmpty_iff] at hempty
      refine Reads.ok.congr (fun text => ?_) fun f => ?_
      · simp only [Option.some.injEq, Value.text.injEq, eq_comm (a := text)]
        exact ⟨fun h => ⟨h, h ▸ hempty⟩, And.left⟩
      · simpa using fun h => absurd h hempty
  · rename_i hget
    refine Reads.error.congr (fun text => ?_) fun f => ?_
    · simpa using fun h => absurd h (hget text)
    · simpa using fun _ text h => absurd h (hget text)

/-! ## Headings -/

theorem Kind.ofText?_eq_some_iff (text : String) (kind : Kind) :
    Kind.ofText? text = some kind ↔ text = kind.text := by
  constructor
  · unfold Kind.ofText?
    split <;> rintro ⟨⟩ <;> rfl
  · rintro rfl
    cases kind <;> rfl

theorem headingDefect_iff (taken : List String) {index : Nat} {entry : Value} {f : Fault} :
    HeadingDefect path index taken entry f ↔ HeadingDefect path index [] entry f ∨
      ∃ h, Heads entry index h ∧ h.name ∈ taken ∧ f = .redeclared h.name := by
  constructor
  · rintro (hentry | ⟨hentry, hname⟩ | ⟨hentry, hname, hkind⟩ | ⟨hentry, hname, htext, hkind⟩ |
      ⟨hh, htaken⟩)
    · exact .inl (.notTable hentry)
    · exact .inl (.name hentry hname)
    · exact .inl (.kind hentry hname hkind)
    · exact .inl (.unknownKind hentry hname htext hkind)
    · exact .inr ⟨_, hh, htaken, rfl⟩
  · rintro ((hentry | ⟨hentry, hname⟩ | ⟨hentry, hname, hkind⟩ | ⟨hentry, hname, htext, hkind⟩ |
      ⟨_, htaken⟩) | ⟨h, hh, htaken, rfl⟩)
    · exact .notTable hentry
    · exact .name hentry hname
    · exact .kind hentry hname hkind
    · exact .unknownKind hentry hname htext hkind
    · cases htaken
    · exact .redeclared hh htaken

theorem reads_kind (index : Nat) (t : Table) (name text : String) :
    Reads (match Kind.ofText? text with
        | some kind => .ok { index, name, kind, table := t }
        | none => .error (.malformedModule path (.unknownKind name text)) : Except Fault Heading)
      (fun h => ∃ kind : Kind, text = kind.text ∧ h = { index, name, kind, table := t })
      (fun f => (∀ kind : Kind, text ≠ kind.text) ∧
        f = .malformedModule path (.unknownKind name text)) := by
  have hkind := Kind.ofText?_eq_some_iff text
  cases h : Kind.ofText? text with
  | some kind =>
      simp only [h, Option.some.injEq] at hkind
      refine Reads.ok.congr (fun h => ?_) fun f => ?_ <;> simp [← hkind]
  | none =>
      simp only [h, reduceCtorEq, false_iff] at hkind
      refine Reads.error.congr (fun h => ?_) fun f => ?_ <;> simp [hkind]

theorem reads_readHeading (index : Nat) (entry : Value) :
    Reads (readHeading path index entry) (Heads entry index)
      (HeadingDefect path index [] entry) := by
  cases entry with
  | table t =>
      refine ((reads_requireText index t "name").bind fun name hname =>
        (reads_requireText index t "kind").bind fun text htext =>
          reads_kind index t name text).congr (fun h => ?_) fun f => ?_
      · constructor
        · rintro ⟨name, hname, text, htext, kind, rfl, rfl⟩
          exact ⟨rfl, rfl, hname, htext.1⟩
        · rintro ⟨hentry, rfl, hname, hkind⟩
          obtain rfl := Value.table.inj hentry
          have hne : h.kind.text ≠ "" := by cases h.kind <;> decide
          exact ⟨_, hname, _, ⟨hkind, hne⟩, h.kind, rfl, rfl⟩
      · constructor
        · rintro (⟨hname, rfl⟩ | ⟨name, hname, ⟨hkind, rfl⟩ | ⟨text, htext, hkind, rfl⟩⟩)
          · exact .name rfl hname
          · exact .kind rfl hname hkind
          · exact .unknownKind rfl hname htext hkind
        · rintro (hentry | ⟨hentry, hname⟩ | ⟨hentry, hname, hkind⟩ |
            ⟨hentry, hname, htext, hkind⟩ | ⟨_, htaken⟩)
          · exact (hentry t rfl).elim
          · obtain rfl := Value.table.inj hentry
            exact .inl ⟨hname, rfl⟩
          · obtain rfl := Value.table.inj hentry
            exact .inr ⟨_, hname, .inl ⟨hkind, rfl⟩⟩
          · obtain rfl := Value.table.inj hentry
            exact .inr ⟨_, hname, .inr ⟨_, htext, hkind, rfl⟩⟩
          · cases htaken
  | _ =>
      refine Reads.error.congr (fun h => ?_) fun f => ?_
      · simpa using fun hh : Heads _ _ h => by cases hh.entry
      · constructor
        · rintro rfl
          exact .notTable nofun
        · rintro (_ | ⟨⟨⟩⟩ | ⟨⟨⟩⟩ | ⟨⟨⟩⟩ | ⟨_, ⟨⟩⟩)
          rfl

/-- The headings of some entries, the first at an index, whose names are not taken. -/
structure HeadingsFrom (index : Nat) (taken : List String) (entries : List Value)
    (hs : List Heading) : Prop where
  heads : List.Forall₂ (fun entry h => Heads entry.1 entry.2 h) (entries.zipIdx index) hs
  distinct : (hs.map Heading.name).Nodup
  fresh : ∀ h ∈ hs, h.name ∉ taken

theorem headingsFrom_nil {index : Nat} {taken : List String} :
    HeadingsFrom index taken [] hs ↔ hs = [] := by
  constructor
  · rintro ⟨hheads, -, -⟩
    exact List.forall₂_nil_left_iff.mp hheads
  · rintro rfl
    exact ⟨.nil, .nil, nofun⟩

theorem headingsFrom_cons {index : Nat} {taken : List String} {entry : Value}
    {entries : List Value} : HeadingsFrom index taken (entry :: entries) hs ↔
      ∃ h, (Heads entry index h ∧ h.name ∉ taken) ∧
        ∃ rest, HeadingsFrom (index + 1) (h.name :: taken) entries rest ∧ hs = h :: rest := by
  constructor
  · rintro ⟨hheads, hdistinct, hfresh⟩
    obtain _ | ⟨hh, hheads⟩ := hheads
    obtain ⟨hname, hdistinct⟩ := List.nodup_cons.mp hdistinct
    obtain ⟨hhead, hfresh⟩ := List.forall_mem_cons.mp hfresh
    refine ⟨_, ⟨hh, hhead⟩, _, ⟨hheads, hdistinct, fun g hg => ?_⟩, rfl⟩
    rw [List.mem_cons, not_or]
    exact ⟨fun heq => hname (heq ▸ List.mem_map_of_mem hg), hfresh g hg⟩
  · rintro ⟨h, ⟨hh, hhead⟩, rest, ⟨hheads, hdistinct, hfresh⟩, rfl⟩
    refine ⟨.cons hh hheads, List.nodup_cons.mpr ⟨fun hmem => ?_, hdistinct⟩,
      List.forall_mem_cons.mpr ⟨hhead, fun g hg hmem => hfresh g hg (.tail _ hmem)⟩⟩
    obtain ⟨g, hg, hname⟩ := List.mem_map.mp hmem
    exact hfresh g hg (hname ▸ List.mem_cons_self)

/-- A defect in the heading of an entry such that the headings before it are fine. -/
def DefectFrom (path : String) (index : Nat) (taken : List String) (entries : List Value)
    (f : Fault) : Prop :=
  ∃ before entry after hs, entries = before ++ entry :: after ∧
    HeadingsFrom index taken before hs ∧
    HeadingDefect path (index + before.length) (hs.map Heading.name ++ taken) entry f

theorem defectFrom_nil {index : Nat} {taken : List String} {f : Fault} :
    DefectFrom path index taken [] f ↔ False := by
  simp [DefectFrom]

theorem defectFrom_cons {index : Nat} {taken : List String} {entry : Value}
    {entries : List Value} {f : Fault} : DefectFrom path index taken (entry :: entries) f ↔
      HeadingDefect path index taken entry f ∨ ∃ h, (Heads entry index h ∧ h.name ∉ taken) ∧
        DefectFrom path (index + 1) (h.name :: taken) entries f := by
  have hindex (before : List Value) :
      index + (entry :: before).length = index + 1 + before.length := by
    rw [List.length_cons]
    omega
  -- The name of the first entry may stand with the names that are taken.
  have htaken (h : Heading) (hs : List Heading) (index' : Nat) (entry' : Value) :
      HeadingDefect path index' ((h :: hs).map Heading.name ++ taken) entry' f ↔
        HeadingDefect path index' (hs.map Heading.name ++ h.name :: taken) entry' f := by
    rw [headingDefect_iff, headingDefect_iff (hs.map Heading.name ++ h.name :: taken)]
    simp [or_left_comm]
  constructor
  · rintro ⟨before, entry', after, hs, hentries, hhs, hf⟩
    cases before with
    | nil =>
        obtain ⟨rfl, -⟩ := List.cons.inj hentries
        obtain rfl := headingsFrom_nil.mp hhs
        exact .inl hf
    | cons first before =>
        obtain ⟨rfl, rfl⟩ := List.cons.inj hentries
        obtain ⟨h, hh, rest, hrest, rfl⟩ := headingsFrom_cons.mp hhs
        rw [hindex, htaken] at hf
        exact .inr ⟨h, hh, before, entry', after, rest, rfl, hrest, hf⟩
  · rintro (hf | ⟨h, hh, before, entry', after, rest, rfl, hrest, hf⟩)
    · exact ⟨[], entry, entries, [], rfl, headingsFrom_nil.mpr rfl, hf⟩
    · refine ⟨entry :: before, entry', after, h :: rest, rfl,
        headingsFrom_cons.mpr ⟨h, hh, rest, hrest, rfl⟩, ?_⟩
      rwa [hindex, htaken]

theorem reads_readHeadings (index : Nat) (taken : List String) (entries : List Value) :
    Reads (readHeadings path index taken entries) (HeadingsFrom index taken entries)
      (DefectFrom path index taken entries) := by
  -- The names of the entries in front are taken, and a later entry is refused for them.
  induction entries generalizing index taken with
  | nil => exact Reads.ok.congr (fun hs => headingsFrom_nil.symm) fun f => defectFrom_nil.symm
  | cons entry entries ih =>
      have hnext (h : Heading) : Reads
          (if h.name ∈ taken then throw (.redeclared h.name)
            else do
              let rest ← readHeadings path (index + 1) (h.name :: taken) entries
              pure (h :: rest))
          (fun hs => h.name ∉ taken ∧
            ∃ rest, HeadingsFrom (index + 1) (h.name :: taken) entries rest ∧ hs = h :: rest)
          (fun f => h.name ∈ taken ∧ f = .redeclared h.name ∨
            h.name ∉ taken ∧ DefectFrom path (index + 1) (h.name :: taken) entries f) := by
        split
        · rename_i hmem
          exact Reads.error.congr (fun hs => by simp [hmem]) fun f => by simp [hmem]
        · rename_i hmem
          exact ((ih _ _).bind fun rest _ => Reads.ok).congr (fun hs => by simp [hmem]) fun f => by
            simp [hmem]
      refine ((reads_readHeading index entry).bind fun h _ => hnext h).congr (fun hs => ?_)
        fun f => ?_
      · rw [headingsFrom_cons]
        simp only [and_assoc]
      · rw [defectFrom_cons, headingDefect_iff taken, or_assoc, ← exists_or]
        simp only [and_assoc, and_or_left]

theorem reads_readHeadings_all (entries : List Value) :
    Reads (readHeadings path 0 [] entries) (Headings entries)
      (fun f => ∃ before entry after hs, entries = before ++ entry :: after ∧ Headings before hs ∧
        HeadingDefect path before.length (hs.map Heading.name) entry f) := by
  have hall {entries : List Value} {hs : List Heading} :
      HeadingsFrom 0 [] entries hs ↔ Headings entries hs :=
    ⟨fun h => ⟨h.heads, h.distinct⟩, fun h => ⟨h.heads, h.distinct, nofun⟩⟩
  refine (reads_readHeadings 0 [] entries).congr (fun hs => hall) fun f => ?_
  simp [DefectFrom, hall]

/-! ## Types -/

theorem lookup_typeNames (hdistinct : (hs.map Heading.name).Nodup) {name : String} {id : Ident} :
    (typeNames hs).lookup name = some id ↔
      ∃ h ∈ hs, h.kind ≠ .function ∧ h.name = name ∧ h.id = id := by
  have hnodup : ((typeNames hs).map Prod.fst).Nodup := by
    simp only [typeNames, List.map_map]
    exact hdistinct.sublist (List.filter_sublist.map _)
  have hmem : (name, id) ∈ typeNames hs ↔
      ∃ h ∈ hs, h.kind ≠ .function ∧ h.name = name ∧ h.id = id := by
    simp [typeNames, and_assoc]
  rw [← hmem]
  constructor
  · intro h
    obtain ⟨front, rest, hparts, -⟩ := List.lookup_eq_some_iff.mp h
    simp [hparts]
  · exact lookup_eq_some_of_mem hnodup

theorem lookup_typeNames_eq_none (hdistinct : (hs.map Heading.name).Nodup) {name : String} :
    (typeNames hs).lookup name = none ↔ ∀ h ∈ hs, h.kind ≠ .function → h.name ≠ name := by
  rw [Option.eq_none_iff_forall_ne_some]
  simp only [ne_eq, lookup_typeNames hdistinct]
  constructor
  · exact fun h g hg hkind hname => h g.id ⟨g, hg, hkind, hname, rfl⟩
  · rintro h id ⟨g, hg, hkind, hname, -⟩
    exact h g hg hkind hname

theorem reads_typeName (hdistinct : (hs.map Heading.name).Nodup) (owner name : String) :
    Reads (match (typeNames hs).lookup name with
        | some id => .ok (.decl id)
        | none => match Atom.ofText? name with
          | some a => .ok (.atom a)
          | none => .error (.unknownType name owner) : Except Fault TypeRef)
      (Names hs name)
      (fun f => (¬ ∃ type, Names hs name type) ∧ f = .unknownType name owner) := by
  cases hlookup : (typeNames hs).lookup name with
  | some id =>
      obtain ⟨h, hmem, hkind, rfl, rfl⟩ := (lookup_typeNames hdistinct).mp hlookup
      have hnames : Names hs h.name (.decl h.id) := .decl hmem hkind
      refine Reads.ok.congr (fun type => ⟨?_, ?_⟩) fun f => ?_
      · rintro rfl
        exact hnames
      · -- A name that is declared never stands for an atom.
        generalize hname : h.name = name at hlookup
        rintro (⟨hmem', hkind'⟩ | ⟨hnone, -⟩)
        · have hlookup' := (lookup_typeNames hdistinct).mpr ⟨_, hmem', hkind', rfl, rfl⟩
          rw [Option.some.inj (hlookup'.symm.trans hlookup)]
        · exact (hnone h hmem hkind hname).elim
      · simp [show ∃ type, Names hs h.name type from ⟨_, hnames⟩]
  | none =>
      have hnone := (lookup_typeNames_eq_none hdistinct).mp hlookup
      have hnames (type : TypeRef) :
          Names hs name type ↔ ∃ a, Atom.ofText? name = some a ∧ type = .atom a := by
        simp only [Atom.ofText?_eq_some_iff]
        constructor
        · rintro (⟨hmem, hkind⟩ | ⟨-, ha⟩)
          · exact (hnone _ hmem hkind rfl).elim
          · exact ⟨_, ha, rfl⟩
        · rintro ⟨a, ha, rfl⟩
          exact .atom hnone ha
      cases hatom : Atom.ofText? name with
      | some a => refine Reads.ok.congr (fun type => ?_) fun f => ?_ <;> simp [hnames, hatom]
      | none => refine Reads.error.congr (fun type => ?_) fun f => ?_ <;> simp [hnames, hatom]

theorem reads_readType (hdistinct : (hs.map Heading.name).Nodup) (owner : String)
    (value : Option Value) :
    Reads (readType path (typeNames hs) owner value) (TypeAt hs value)
      (TypeDefect path hs owner value) := by
  unfold readType
  split
  · rename_i name
    have htype (type : TypeRef) : TypeAt hs (some (.text name)) type ↔ Names hs name type := by
      simp [TypeAt]
    have hdefect (f : Fault) : TypeDefect path hs owner (some (.text name)) f ↔
        (¬ ∃ type, Names hs name type) ∧ f = .unknownType name owner := by
      have hnone : (¬ ∃ type, TypeAt hs (some (.text name)) type) ↔
          ¬ IsType hs (some (.text name)) := not_congr exists_typeAt_iff
      simp only [htype] at hnone
      rw [hnone]
      constructor
      · rintro (h | h)
        · exact (h name rfl).elim
        · exact ⟨h, rfl⟩
      · rintro ⟨h, rfl⟩
        exact .unknown h
    exact (reads_typeName hdistinct owner name).congr (fun type => (htype type).symm) fun f =>
      (hdefect f).symm
  · rename_i hvalue
    refine Reads.error.congr (fun type => ?_) fun f => ?_
    · simpa using fun ⟨name, hname, _⟩ => hvalue name hname
    · constructor
      · rintro rfl
        exact .notText hvalue
      · rintro (_ | _)
        · rfl
        · exact (hvalue _ rfl).elim

/-! ## Members and arguments -/

theorem Value.asTable?_eq_some_iff (v : Value) (t : Table) :
    v.asTable? = some t ↔ v = .table t := by
  cases v <;> simp [Value.asTable?]

theorem Value.asText?_eq_some_iff (v : Value) (text : String) :
    v.asText? = some text ↔ v = .text text := by
  cases v <;> simp [Value.asText?]

theorem reads_readTables (h : Heading) (key : String) :
    Reads (readTables path h key) (TablesAt h.table key)
      (fun f => (∀ tables, ¬ TablesAt h.table key tables) ∧
        f = .malformedModule path (.fieldsNotTables key h.name)) := by
  unfold readTables TablesAt
  dsimp only
  split
  · rename_i hget
    refine Reads.ok.congr (fun tables => ?_) fun f => ?_ <;> simp [hget]
  · rename_i items hget
    have htables := mapM_eq_some_iff Value.asTable?_eq_some_iff items
    simp only [hget, reduceCtorEq, false_and, false_or, Option.some.injEq, Value.array.injEq,
      ← htables]
    cases items.mapM Value.asTable? with
    | some tables => refine Reads.ok.congr (fun tables' => ?_) fun f => ?_ <;> simp [eq_comm]
    | none => refine Reads.error.congr (fun tables' => ?_) fun f => ?_ <;> simp
  · rename_i value hitems hget
    have hvalue (tables : List Table) : value ≠ .array (tables.map .table) := hitems _
    refine Reads.error.congr (fun tables' => ?_) fun f => ?_ <;> simp [hget, hvalue]

theorem reads_readField (hdistinct : (hs.map Heading.name).Nodup) (h : Heading) (t : Table) :
    Reads (readField path (typeNames hs) h t) (FieldAt hs t) (FieldDefect path hs h t) := by
  refine ((reads_requireText h.index t "name").bind fun name _ =>
    (reads_readType hdistinct h.name (t.get? "type")).bind fun type _ => Reads.ok).congr
      (fun f => ?_) fun f => ?_
  · constructor
    · rintro ⟨name, hname, type, htype, rfl⟩
      exact ⟨hname, htype⟩
    · rintro ⟨hname, htype⟩
      exact ⟨_, hname, _, htype, rfl⟩
  · constructor
    · rintro (⟨hname, rfl⟩ | ⟨name, hname, htype | ⟨_, _, hfalse⟩⟩)
      · exact .name hname
      · exact .type hname htype
      · exact hfalse.elim
    · rintro (hname | ⟨hname, htype⟩)
      · exact .inl ⟨hname, rfl⟩
      · exact .inr ⟨_, hname, .inl htype⟩

theorem reads_readFields (hdistinct : (hs.map Heading.name).Nodup) (h : Heading) (key : String) :
    Reads (readFields path (typeNames hs) h key) (FieldsAt hs h.table key)
      (FieldsDefect path hs h key) := by
  refine ((reads_readTables h key).bind fun tables _ =>
    .mapM (reads_readField hdistinct h) tables).congr (fun fields => Iff.rfl) fun f => ?_
  simp only [exists_fieldAt_iff]
  constructor
  · rintro (⟨htables, rfl⟩ | ⟨tables, htables, hfield⟩)
    · exact .notTables htables
    · exact .field htables hfield
  · rintro (htables | ⟨htables, hfield⟩)
    · exact .inl ⟨htables, rfl⟩
    · exact .inr ⟨_, htables, hfield⟩

/-! ## Payloads -/

theorem reads_readVariants (h : Heading) :
    Reads (readVariants path h) (VariantsAt h.table) (VariantsDefect path h) := by
  have hdefect (f : Fault) : VariantsDefect path h f ↔
      (∃ value, h.table.get? "variants" = some value ∧
          (∀ variants : List String, value ≠ .array (variants.map .text)) ∧
          f = .malformedModule path (.variantsNotText h.name)) ∨
        (h.table.get? "variants" = none ∨ h.table.get? "variants" = some (.array [])) ∧
          f = .malformedModule path (.noVariants h.name) := by
    constructor
    · rintro (⟨hvalue, hvariants⟩ | hvariants)
      · exact .inl ⟨_, hvalue, hvariants, rfl⟩
      · exact .inr ⟨hvariants, rfl⟩
    · rintro (⟨value, hvalue, hvariants, rfl⟩ | ⟨hvariants, rfl⟩)
      · exact .notText hvalue hvariants
      · exact .none hvariants
  unfold readVariants VariantsAt
  cases hget : h.table.get? "variants" with
  | none =>
      refine Reads.error.congr (fun variants => ?_) fun f => ?_ <;> simp [hdefect, hget]
  | some value =>
      cases value with
      | array items =>
          have htexts := mapM_eq_some_iff Value.asText?_eq_some_iff items
          simp only [Value.asArray?, Option.bind_some]
          cases hitems : items.mapM Value.asText? with
          | none =>
              simp only [hitems, reduceCtorEq, false_iff] at htexts
              have hnil : items ≠ [] := htexts []
              refine Reads.error.congr (fun variants => ?_) fun f => ?_ <;>
                simp [hdefect, hget, htexts, hnil]
          | some texts =>
              obtain rfl := (htexts texts).mp hitems
              have hinj : Function.Injective (List.map Value.text) :=
                List.map_injective_iff.mpr fun _ _ => Value.text.inj
              cases texts with
              | nil =>
                  refine Reads.error.congr (fun variants => ?_) fun f => ?_
                  · simp [eq_comm]
                  · simp [hdefect, hget, eq_comm]
              | cons text texts =>
                  refine Reads.ok.congr (fun variants => ?_) fun f => ?_
                  · simp only [Option.some.injEq, Value.array.injEq, hinj.eq_iff]
                    constructor
                    · rintro rfl
                      exact ⟨rfl, List.cons_ne_nil _ _⟩
                    · exact fun h => h.1.symm
                  · simp [hdefect, hget, hinj.eq_iff, -List.map_cons]
      | _ => refine Reads.error.congr (fun variants => ?_) fun f => ?_ <;> simp [hdefect, hget]

theorem reads_result (hdistinct : (hs.map Heading.name).Nodup) (h : Heading)
    (args : List Field) :
    Reads (do
        let result ← match h.table.get? "ret" with
          | none => pure none
          | some value => some <$> readType path (typeNames hs) h.name (some value)
        pure (Entity.function args result) : Except Fault Entity)
      (fun e => ∃ result, ResultAt hs h.table result ∧ e = .function args result)
      (fun f => ∃ value, h.table.get? "ret" = some value ∧
        TypeDefect path hs h.name (some value) f) := by
  have hresult (result : Option TypeRef) : ResultAt hs h.table result ↔
      match h.table.get? "ret" with
      | none => result = none
      | some value => ∃ type, TypeAt hs (some value) type ∧ result = some type := by
    constructor
    · rintro (hret | ⟨hret, htype⟩) <;> rw [hret]
      exact ⟨_, htype, rfl⟩
    · cases hret : h.table.get? "ret" with
      | none =>
          rintro rfl
          exact .none hret
      | some value =>
          rintro ⟨type, htype, rfl⟩
          exact .some hret htype
  simp only [hresult]
  cases h.table.get? "ret" with
  | none => refine Reads.ok.congr (fun e => ?_) fun f => ?_ <;> simp
  | some value =>
      refine ((reads_readType hdistinct h.name (some value)).map.bind fun result _ =>
        Reads.ok).congr (fun e => Iff.rfl) fun f => ?_
      simp

theorem reads_readEntity (hdistinct : (hs.map Heading.name).Nodup) (h : Heading) :
    Reads (readEntity path (typeNames hs) h) (EntityAt hs h) (PayloadDefect path hs h) := by
  unfold readEntity EntityAt PayloadDefect
  cases h.kind with
  | aliasOf =>
      exact ((reads_readType hdistinct h.name (h.table.get? "to")).bind fun target _ =>
        Reads.ok).congr (fun e => Iff.rfl) fun f => by simp
  | struct =>
      exact ((reads_readFields hdistinct h "members").bind fun members _ =>
        Reads.ok).congr (fun e => Iff.rfl) fun f => by simp
  | enum =>
      exact ((reads_readVariants h).bind fun variants _ => Reads.ok).congr (fun e => Iff.rfl)
        fun f => by simp
  | function =>
      refine ((reads_readFields hdistinct h "args").bind fun args _ =>
        reads_result hdistinct h args).congr (fun e => Iff.rfl) fun f => ?_
      simp [← exists_fieldsAt_iff]

theorem reads_readDecl (hdistinct : (hs.map Heading.name).Nodup) (h : Heading) :
    Reads (readDecl path (typeNames hs) h) (DeclAt hs h) (PayloadDefect path hs h) := by
  refine ((reads_readEntity hdistinct h).bind fun e _ => Reads.ok).congr (fun d => ?_) fun f => ?_
  · constructor
    · rintro ⟨e, he, rfl⟩
      exact ⟨rfl, rfl, he⟩
    · rintro ⟨hid, hname, he⟩
      exact ⟨d.entity, he, by rw [Heading.id, ← hid, ← hname]⟩
  · simp

/-! ## Whole descriptions -/

theorem reads_readName (defaultName : String) (t : Table) :
    Reads (readName path defaultName t) (NameAt defaultName t)
      (fun f => (∃ value, t.get? "name" = some value ∧ ∀ name, value ≠ .text name) ∧
        f = .malformedModule path .nameNotText) := by
  unfold readName NameAt
  cases t.get? "name" with
  | none => refine Reads.ok.congr (fun name => ?_) fun f => ?_ <;> simp
  | some value =>
      cases value with
      | text name => refine Reads.ok.congr (fun name' => ?_) fun f => ?_ <;> simp [eq_comm]
      | _ => refine Reads.error.congr (fun name => ?_) fun f => ?_ <;> simp

theorem reads_readEntries (t : Table) :
    Reads (readEntries path t) (EntriesAt t)
      (fun f => (∃ value, t.get? "declaration" = some value ∧ ∀ entries, value ≠ .array entries) ∧
        f = .malformedModule path .declarationsNotArray) := by
  unfold readEntries EntriesAt
  cases t.get? "declaration" with
  | none => refine Reads.ok.congr (fun entries => ?_) fun f => ?_ <;> simp
  | some value =>
      cases value with
      | array entries => refine Reads.ok.congr (fun entries' => ?_) fun f => ?_ <;> simp [eq_comm]
      | _ => refine Reads.error.congr (fun entries => ?_) fun f => ?_ <;> simp

/-- Loading accepts what describes an interface, and refuses the rest for its first defect. -/
theorem reads_ofTable (path defaultName : String) (t : Table) :
    Reads (Interface.ofTable path defaultName t) (Describes defaultName t) (Defect path t) := by
  refine ((reads_readName defaultName t).bind fun name _ =>
    (reads_readEntries t).bind fun entries _ =>
      (reads_readHeadings_all entries).bind fun hs hhs =>
        (Reads.mapM (reads_readDecl hhs.distinct) hs).bind fun decls _ => Reads.ok).congr
          (fun i => ?_) fun f => ?_
  · constructor
    · rintro ⟨name, hname, entries, hentries, hs, hhs, decls, hdecls, rfl⟩
      exact ⟨hname, entries, hs, hentries, hhs, hdecls⟩
    · rintro ⟨hname, entries, hs, hentries, hhs, hdecls⟩
      exact ⟨_, hname, entries, hentries, hs, hhs, _, hdecls, rfl⟩
  · simp only [exists_declAt_iff, and_false, exists_false, or_false]
    constructor
    · rintro (⟨⟨value, hname, htext⟩, rfl⟩ | ⟨name, hname, hrest⟩)
      · exact .name hname htext
      have hnamed := (exists_nameAt_iff defaultName).mp ⟨name, hname⟩
      rcases hrest with ⟨⟨value, hentries, harray⟩, rfl⟩ | ⟨entries, hentries, hrest⟩
      · exact .entries hnamed hentries harray
      rcases hrest with ⟨before, entry, after, hs, rfl, hbefore, hf⟩ | ⟨hs, hhs, hf⟩
      · exact .heading hnamed hentries hbefore hf
      · exact .payload hnamed hentries hhs hf
    · rintro (⟨hname, htext⟩ | ⟨hnamed, hentries, harray⟩ | ⟨hnamed, hentries, hbefore, hf⟩ |
        ⟨hnamed, hentries, hhs, hf⟩)
      · exact .inl ⟨⟨_, hname, htext⟩, rfl⟩
      all_goals
        obtain ⟨name, hname⟩ := (exists_nameAt_iff defaultName).mpr hnamed
        refine .inr ⟨name, hname, ?_⟩
      · exact .inl ⟨⟨_, hentries, harray⟩, rfl⟩
      · exact .inr ⟨_, hentries, .inl ⟨_, _, _, _, rfl, hbefore, hf⟩⟩
      · exact .inr ⟨_, hentries, .inr ⟨_, hhs, hf⟩⟩

end Description

open Description

/-- Loading accepts exactly the tables that have the format of a description, answers with the
interface that a table describes, and fails for the defect that comes first. -/
theorem ofTable_follows_format (path defaultName : String) (t : Toml.Table) :
    ((∃ i, Interface.ofTable path defaultName t = .ok i) ↔ WellFormed t) ∧
    (∀ i, Interface.ofTable path defaultName t = .ok i ↔ Describes defaultName t i) ∧
    ∀ f, Interface.ofTable path defaultName t = .error f ↔ Defect path t f := by
  have hreads := reads_ofTable path defaultName t
  exact ⟨hreads.exists_ok_iff.trans exists_describes_iff, hreads.ok_iff, hreads.error_iff⟩

end HostDecl
