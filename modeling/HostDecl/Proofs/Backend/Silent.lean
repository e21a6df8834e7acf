import HostDecl.Proofs.Backend.C
import HostDecl.Proofs.Backend.Llvm
import HostDecl.Proofs.Session.Notes

/-!
# The C and the LLVM backend report nothing

Both hosts spell every atom with a token of its own width and have functions, and their backends do
not look for anything to warn of. So a session of theirs has reported at its end what it had
reported at its start.
-/

namespace HostDecl

open Emission (Looks)

variable {config : Config} {i : Interface} {d : Decl} {table : AtomTable}

namespace C

theorem looks_emitPreamble : Looks table (emitPreamble config i) [] := by
  refine Looks.line.andThen fun _ => Looks.line.andThen fun _ => Looks.line.andThen fun _ => ?_
  refine Looks.endBlock.andThen fun _ => ?_
  exact (Looks.forM_nothing _ fun _ _ => .line).andThen fun _ => .endBlock

theorem looks_emitClosing : Looks table (emitClosing i) [] :=
  Looks.endBlock.andThen fun _ => .line

theorem looks_emitAlias {target : TypeRef} : Looks table (emitAlias i d target) [] :=
  Looks.resolve.andThen fun _ => Looks.define.andThen fun _ => Looks.line.andThen fun _ => .endBlock

theorem looks_emitMember {member : Field} : Looks table (emitMember i member) [] :=
  Looks.resolve.andThen fun _ => .line

theorem looks_emitStruct {members : List Field} :
    Looks table (emitStruct config i d members) [] := by
  have hmembers : Looks table (members.forM (emitMember i)) [] :=
    Looks.forM_nothing members fun _ _ => looks_emitMember
  refine Looks.define.andThen fun _ => hmembers.block.andThen fun _ => ?_
  refine Looks.layoutOf.andThen fun _ => Looks.line.andThen fun _ => Looks.line.andThen fun _ => ?_
  exact (Looks.forM_nothing _ fun _ _ => .line).andThen fun _ => .endBlock

theorem looks_emitEnum {variants : List String} :
    Looks table (emitEnum config i d variants) [] := by
  have hvariants : Looks table (variants.zipIdx.forM fun variant => (Emission.line
      (CaseStyle.shouty.convert d.name ++ "_" ++ Rules.c.variantName variant.1 ++ " = "
        ++ toString variant.2 ++ ",") 1 : Emit Unit)) [] :=
    Looks.forM_nothing _ fun _ _ => .line
  refine Looks.define.andThen fun _ => Looks.resolve.andThen fun _ => ?_
  exact hvariants.block.andThen fun _ => Looks.line.andThen fun _ => .endBlock

theorem looks_emitFunction {args : List Field} {result : Option TypeRef} :
    Looks table (emitFunction i d args result) [] := by
  have hargs : Looks table (args.mapM fun arg => do
      let type ← resolve i arg.type
      (pure (type ++ " " ++ Rules.c.fieldName arg.name) : Emit String)) [] :=
    Looks.mapM_nothing args fun _ _ => Looks.resolve.andThen fun _ => .pure
  have hrest (resultName : String) (params : List String) : Looks table (do
      let paramText := if params.isEmpty then "void" else ", ".intercalate params
      Emission.line (resultName ++ " " ++ Rules.c.functionName d.name ++ "(" ++ paramText ++ ");")
      Emission.endBlock : Emit Unit) [] :=
    Looks.line.andThen fun _ => .endBlock
  cases result with
  | none => exact Looks.pure.andThen fun _ => hargs.andThen fun _ => hrest _ _
  | some type => exact Looks.resolve.andThen fun _ => hargs.andThen fun _ => hrest _ _

/-- A run for C reports nothing. -/
theorem notes_run {skipUnsupported : Bool} {s t : Session String Unit}
    (h : Yields ((backend config).run i skipUnsupported) s () t) : t.notes = s.notes := by
  have hdecl (d : Decl) : Looks .c ((backend config).emitDecl i d) [] :=
    Backend.looks_emitDecl (fun _ _ => looks_emitAlias) (fun _ _ => looks_emitStruct)
      (fun _ _ => looks_emitEnum) fun _ _ _ => looks_emitFunction
  exact Backend.notes_run_of_emitsFunctions rfl looks_emitPreamble (fun d _ => hdecl d)
    looks_emitClosing h

end C

namespace Llvm

open Ir

theorem looks_structType {name : String} : Looks table (structType name) [] := by
  unfold structType
  split
  · exact .throw
  · exact .pure

theorem looks_setBody {name : String} {elements : List IrType} :
    Looks table (setBody name elements) [] := by
  intro s u t h
  obtain ⟨-, rfl⟩ := yields_setBody.mp h
  rfl

theorem looks_useGlobal {name : String} : Looks table (useGlobal name) [] := by
  intro s u t h
  obtain ⟨-, rfl⟩ := yields_useGlobal.mp h
  rfl

theorem looks_emitPreamble : Looks table (emitPreamble config i) [] :=
  Looks.line.andThen fun _ => Looks.line.andThen fun _ => Looks.line.andThen fun _ => .endBlock

theorem looks_emitAlias {target : TypeRef} : Looks table (emitAlias i d target) [] :=
  Looks.resolve.andThen fun _ => Looks.define.andThen fun _ => Looks.line.andThen fun _ => .endBlock

theorem looks_emitStruct {members : List Field} :
    Looks table (emitStruct config i d members) [] := by
  refine looks_structType.andThen fun _ => Looks.define.andThen fun _ => ?_
  refine (Looks.mapM_nothing members fun _ _ => .resolve).andThen fun _ => ?_
  refine looks_setBody.andThen fun _ => Looks.line.andThen fun _ =>
    Looks.layoutOf.andThen fun _ => ?_
  exact Looks.line.andThen fun _ => .endBlock

theorem looks_emitVariant {type : IrType} {enumName variant : String} {value : Nat} :
    Looks table (emitVariant type enumName variant value) [] :=
  looks_useGlobal.andThen fun _ => .line

theorem looks_emitEnum {variants : List String} :
    Looks table (emitEnum config i d variants) [] := by
  refine Looks.resolve.andThen fun _ => Looks.define.andThen fun _ => Looks.line.andThen fun _ => ?_
  exact (Looks.forM_nothing _ fun _ _ => looks_emitVariant).andThen fun _ => .endBlock

theorem looks_emitFunction {args : List Field} {result : Option TypeRef} :
    Looks table (emitFunction i d args result) [] := by
  have hargs : Looks table (args.mapM fun arg => resolve i arg.type) [] :=
    Looks.mapM_nothing args fun _ _ => .resolve
  have hrest (resultType : IrType) (types : List IrType) : Looks table (do
      let name := Rules.llvm.functionName d.name
      useGlobal name
      let names := argumentNames (args.map fun arg => Rules.llvm.fieldName arg.name)
      Emission.line (functionLine name resultType (types.zip names))
      Emission.endBlock : Emit Unit) [] :=
    looks_useGlobal.andThen fun _ => Looks.line.andThen fun _ => .endBlock
  cases result with
  | none => exact Looks.pure.andThen fun _ => hargs.andThen fun _ => hrest _ _
  | some type => exact Looks.resolve.andThen fun _ => hargs.andThen fun _ => hrest _ _

/-- A run for IR reports nothing. -/
theorem notes_run {skipUnsupported : Bool} {s t : Session IrType Scope}
    (h : Yields ((backend config).run i skipUnsupported) s () t) : t.notes = s.notes := by
  have hdecl (d : Decl) : Looks .llvm ((backend config).emitDecl i d) [] :=
    Backend.looks_emitDecl (fun _ _ => looks_emitAlias) (fun _ _ => looks_emitStruct)
      (fun _ _ => looks_emitEnum) fun _ _ _ => looks_emitFunction
  exact Backend.notes_run_of_emitsFunctions rfl looks_emitPreamble (fun d _ => hdecl d) .pure h

end Llvm

end HostDecl
