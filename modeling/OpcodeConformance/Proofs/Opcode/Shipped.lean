import OpcodeConformance.Library.Shipped
import OpcodeConformance.Proofs.Library
import OpcodeConformance.Proofs.Library.ModuleText
import OpcodeConformance.Proofs.Opcode.Addition
import OpcodeConformance.Proofs.Opcode.Functions
import OpcodeConformance.Proofs.Opcode.Reversal
import OpcodeConformance.Proofs.Opcode.Session

namespace OpcodeConformance.Opcode

open Wasm

theorem ofText?_ofList (cs : List Char) :
    Module.ofText? (String.ofList cs) = Module.ofChars? cs := by
  rw [Module.ofText?, String.toList_ofList]

theorem bodies_get? (name : String) :
    Library.shipped.bodies.get? name =
      (Library.Shipped.functions.map fun f => (f.1, f.2.2)).reverse.lookup name :=
  Table.get?_ofList _ _

theorem imports_get? (name : String) :
    Library.shipped.manifest.imports.get? name = Library.Shipped.imports.reverse.lookup name :=
  Table.get?_ofList _ _

/-- What the name of an opcode is resolved to, if the functions and the imports are known that it
needs. -/
theorem resolve_shipped {op : String} {bodies imports : List String} (order used : List String)
    (horder : Library.shipped.order [op] = .ok order)
    (hbodies : List.Forall₂ (fun n b =>
      (Library.Shipped.functions.map fun f => (f.1, f.2.2)).reverse.lookup n = some b) order bodies)
    (hused : (Library.shipped.uses order).map (·.2) = used)
    (himports : List.Forall₂ (fun i t => Library.Shipped.imports.reverse.lookup i = some t) used
      imports) :
    Library.shipped.resolve [op] = .ok (bodies, imports) := by
  subst hused
  refine Library.resolve_of_mapM horder (Results.mapM_of_forall₂ ?_) (Results.mapM_of_forall₂ ?_)
  · exact hbodies.imp fun n _ hn => Library.body_eq_ok_iff.mpr ((bodies_get? n).trans hn)
  · exact (List.forall₂_map_left_iff.mp himports).imp fun u _ hu =>
      Library.importText_eq_ok_iff.mpr ((imports_get? u.2).trans hu)

theorem ofList_ne {cs ds : List Char} (h : cs ≠ ds) : String.ofList cs ≠ String.ofList ds := by
  intro heq
  apply h
  rw [← String.toList_ofList (l := cs), heq, String.toList_ofList]

theorem nodup_pair {s t : String} (h : s ≠ t) : [s, t].Nodup := List.pairwise_pair.mpr h

def text (op : String) (bodies imports : List String) : List Char :=
  "(module\n".toList ++ (ModuleText.entries (bodies ++ [Synthesis.setStackPointer])
    (imports ++ [Synthesis.gasImport]) [op] ModuleText.defaultPages).flatMap ModuleText.line ++
    [')']

theorem moduleText_of_resolve {op : String} {bodies imports : List String}
    (h : Library.shipped.resolve [op] = .ok (bodies, imports)) :
    Synthesis.moduleText Library.shipped.compiler op =
      .ok (String.ofList (text op bodies imports)) :=
  (Library.moduleText_of_resolve h).trans rfl

theorem code_of_text {c : Compiler} {op : String} {cs : List Char} {m : Module}
    (htext : Synthesis.moduleText c op = .ok (String.ofList cs))
    (hm : Module.ofChars? cs = some m) :
    Synthesis.code c Toolchain.module op = .ok (.compiled m) := by
  have htoolchain : Toolchain.module (String.ofList cs) = .ok (.compiled m) := by
    rw [Toolchain.module, ofText?_ofList, hm]
  unfold Synthesis.code
  rw [htext]
  change (Toolchain.module (String.ofList cs)).mapError _ = _
  rw [htoolchain]
  rfl

def Spelled (texts : List String) (spelled : List (List Char)) : Prop :=
  List.Forall₂ (fun s cs => s.toList = cs) texts spelled

theorem Spelled.map_trim {texts : List String} {spelled : List (List Char)}
    (h : Spelled texts spelled) :
    texts.map (fun s => Text.trim s.toList) = spelled.map Text.trim := by
  induction h with
  | nil => rfl
  | cons hs _ ih => rw [List.map_cons, List.map_cons, hs, ih]

/-- The module that is read in the text of an opcode whose functions are all different. -/
theorem ofChars?_text {op : String} {bodies imports kept : List String}
    {functionTexts importTexts : List (List Char)} {m : Module}
    (hbodies : (bodies ++ [Synthesis.setStackPointer]).Nodup)
    (himports : ModuleText.distinct (imports ++ [Synthesis.gasImport]) = kept)
    (hfunctionTexts : Spelled (bodies ++ [Synthesis.setStackPointer]) functionTexts)
    (himportTexts : Spelled kept importTexts)
    (h : Module.ofChars? ("(module\n".toList ++ (importTexts.map Text.trim ++
      [ModuleText.stackPointer.toList, (ModuleText.memory ModuleText.defaultPages).toList,
        ModuleText.memoryExport.toList] ++
      functionTexts.map Text.trim ++ [(ModuleText.functionExport op).toList]).flatMap
        ModuleText.line ++ [')']) = some m) :
    Module.ofChars? (text op bodies imports) = some m := by
  have hentries : ModuleText.entries (bodies ++ [Synthesis.setStackPointer])
      (imports ++ [Synthesis.gasImport]) [op] ModuleText.defaultPages =
      importTexts.map Text.trim ++ [ModuleText.stackPointer.toList,
        (ModuleText.memory ModuleText.defaultPages).toList, ModuleText.memoryExport.toList] ++
      functionTexts.map Text.trim ++ [(ModuleText.functionExport op).toList] := by
    rw [ModuleText.entries, himports, ModuleText.distinct_of_nodup hbodies,
      hfunctionTexts.map_trim, himportTexts.map_trim]
    rfl
  unfold text
  rw [hentries]
  exact h

theorem distinct_gasImport {imports : List String} (hnodup : imports.Nodup)
    (hmem : Synthesis.gasImport ∈ imports) :
    ModuleText.distinct (imports ++ [Synthesis.gasImport]) = imports := by
  rw [ModuleText.distinct_concat, if_pos hmem, ModuleText.distinct_of_nodup hnodup]

def stageImport : String :=
  "(import \"ethereum\" \"return\" (func $return (param i32 i32)))"

def callerImport : String :=
  "(import \"ethereum\" \"getCaller\" (func $getCaller (param i32)))"

def sizeImport : String :=
  "(import \"ethereum\" \"getCallDataSize\" (func $getCallDataSize (result i32)))"

section

-- strings are compared before, in `ofChars?_text`; what is evaluated are lists of characters
set_option maxRecDepth 20000

theorem ofChars?_add :
    Module.ofChars? (text "ADD" [Library.Shipped.add] [Synthesis.gasImport]) =
      some (module "ADD" [gasImport] [Addition.function]) :=
  ofChars?_text (nodup_pair (ofList_ne (by decide)))
    (distinct_gasImport (List.pairwise_singleton _ _) (.head _))
    (.cons String.toList_ofList (.cons String.toList_ofList .nil))
    (.cons String.toList_ofList .nil) (by decide +kernel)

theorem ofChars?_pop :
    Module.ofChars? (text "POP" [Library.Shipped.pop] [Synthesis.gasImport]) =
      some (module "POP" [gasImport] [Popping.function]) :=
  ofChars?_text (nodup_pair (ofList_ne (by decide)))
    (distinct_gasImport (List.pairwise_singleton _ _) (.head _))
    (.cons String.toList_ofList (.cons String.toList_ofList .nil))
    (.cons String.toList_ofList .nil) (by decide +kernel)

theorem ofChars?_mstore :
    Module.ofChars? (text "MSTORE" [Library.Shipped.mstore] [Synthesis.gasImport]) =
      some (module "MSTORE" [gasImport] [Storing.function]) :=
  ofChars?_text (nodup_pair (ofList_ne (by decide)))
    (distinct_gasImport (List.pairwise_singleton _ _) (.head _))
    (.cons String.toList_ofList (.cons String.toList_ofList .nil))
    (.cons String.toList_ofList .nil) (by decide +kernel)

theorem ofChars?_return :
    Module.ofChars? (text "RETURN" [Library.Shipped.returnRange] [stageImport]) =
      some (module "RETURN" [Returning.stageImport, gasImport] [Returning.function]) :=
  ofChars?_text (nodup_pair (ofList_ne (by decide)))
    (ModuleText.distinct_of_nodup (nodup_pair (ofList_ne (by decide))))
    (.cons String.toList_ofList (.cons String.toList_ofList .nil))
    (.cons String.toList_ofList (.cons String.toList_ofList .nil)) (by decide +kernel)

theorem ofChars?_callDataSize :
    Module.ofChars? (text "CALLDATASIZE" [Library.Shipped.callDataSize]
        [Synthesis.gasImport, sizeImport]) =
      some (module "CALLDATASIZE" [gasImport, Pushing.sizeImport]
        [Pushing.function Pushing.writeSize]) :=
  ofChars?_text (nodup_pair (ofList_ne (by decide)))
    (distinct_gasImport (nodup_pair (ofList_ne (by decide))) (.head _))
    (.cons String.toList_ofList (.cons String.toList_ofList .nil))
    (.cons String.toList_ofList (.cons String.toList_ofList .nil)) (by decide +kernel)

theorem ofChars?_caller :
    Module.ofChars? (text "CALLER" [Library.Shipped.reverseAddress, Library.Shipped.caller]
        [Synthesis.gasImport, callerImport]) =
      some (module "CALLER" [gasImport, Pushing.callerImport]
        [Reversal.function, Pushing.function Pushing.writeCaller]) := by
  have hcaller : Library.Shipped.reverseAddress ≠ Library.Shipped.caller := ofList_ne (by decide)
  have hsetter : Library.Shipped.reverseAddress ≠ Synthesis.setStackPointer :=
    ofList_ne (by decide)
  have hsetter' : Library.Shipped.caller ≠ Synthesis.setStackPointer := ofList_ne (by decide)
  have hbodies : [Library.Shipped.reverseAddress, Library.Shipped.caller,
      Synthesis.setStackPointer].Nodup := by simp [hcaller, hsetter, hsetter']
  exact ofChars?_text hbodies
    (distinct_gasImport (nodup_pair (ofList_ne (by decide))) (.head _))
    (.cons String.toList_ofList (.cons String.toList_ofList (.cons String.toList_ofList .nil)))
    (.cons String.toList_ofList (.cons String.toList_ofList .nil)) (by decide +kernel)

end

theorem code_add :
    Synthesis.code Library.shipped.compiler Toolchain.module "ADD" =
      .ok (.compiled (module "ADD" [gasImport] [Addition.function])) :=
  code_of_text (moduleText_of_resolve
    (resolve_shipped ["ADD"] ["useGas"] rfl (.cons rfl .nil) rfl (.cons rfl .nil)))
    ofChars?_add

/-- An opcode of the library that belongs to the program: its name stands for the code of a module
that is valid and has no entry function, and the last function of that module runs under it. -/
structure Shipped (op : String) (imports : List (String × FunctionType)) (functions : List Function)
    (hosts : List (HostFunction HostState)) (f : Function) : Prop
    extends Entered op imports functions hosts f where
  code : Synthesis.code Library.shipped.compiler Toolchain.module op =
    .ok (.compiled (module op imports functions))
  isValid : (module op imports functions).isValid = true
  ne_entry : op ≠ Contract.entryName

theorem shipped_add :
    Shipped "ADD" [gasImport] [Addition.function] [charger] Addition.function where
  linked := linked_gasImport
  last := rfl
  ne_memory := by decide
  ne_setter := by decide
  params := rfl
  room := by decide +kernel
  code := code_add
  isValid := by decide +kernel
  ne_entry := by decide

theorem shipped_pop :
    Shipped "POP" [gasImport] [Popping.function] [charger] Popping.function where
  linked := linked_gasImport
  last := rfl
  ne_memory := by decide
  ne_setter := by decide
  params := rfl
  room := by decide +kernel
  code := code_of_text (moduleText_of_resolve
    (resolve_shipped ["POP"] ["useGas"] rfl (.cons rfl .nil) rfl (.cons rfl .nil)))
    ofChars?_pop
  isValid := by decide +kernel
  ne_entry := by decide

theorem shipped_mstore :
    Shipped "MSTORE" [gasImport] [Storing.function] [charger] Storing.function where
  linked := linked_gasImport
  last := rfl
  ne_memory := by decide
  ne_setter := by decide
  params := rfl
  room := by decide +kernel
  code := code_of_text (moduleText_of_resolve
    (resolve_shipped ["MSTORE"] ["useGas"] rfl (.cons rfl .nil) rfl (.cons rfl .nil)))
    ofChars?_mstore
  isValid := by decide +kernel
  ne_entry := by decide

theorem shipped_return :
    Shipped "RETURN" [Returning.stageImport, gasImport] [Returning.function]
      [Interface.stager .finish, charger] Returning.function where
  linked := .cons ⟨rfl, rfl⟩ linked_gasImport
  last := rfl
  ne_memory := by decide
  ne_setter := by decide
  params := rfl
  room := by decide +kernel
  code := code_of_text (moduleText_of_resolve
    (resolve_shipped ["RETURN"] ["return"] rfl (.cons rfl .nil) rfl (.cons rfl .nil)))
    ofChars?_return
  isValid := by decide +kernel
  ne_entry := by decide

def sizer : HostFunction HostState where
  type := Pushing.sizeImport.2
  run := fun _ v => .ok ([.i32 (UInt32.ofNat v.host.environment.callData.length)], v)

theorem shipped_callDataSize :
    Shipped "CALLDATASIZE" [gasImport, Pushing.sizeImport] [Pushing.function Pushing.writeSize]
      [charger, sizer] (Pushing.function Pushing.writeSize) where
  linked := .cons ⟨rfl, rfl⟩ (.cons ⟨rfl, rfl⟩ .nil)
  last := rfl
  ne_memory := by decide
  ne_setter := by decide
  params := rfl
  room := by decide +kernel
  code := code_of_text (moduleText_of_resolve
    (resolve_shipped ["CALLDATASIZE"] ["useGas", "getCallDataSize"] rfl (.cons rfl .nil) rfl
      (.cons rfl (.cons rfl .nil)))) ofChars?_callDataSize
  isValid := by decide +kernel
  ne_entry := by decide

theorem shipped_caller :
    Shipped "CALLER" [gasImport, Pushing.callerImport]
      [Reversal.function, Pushing.function Pushing.writeCaller]
      [charger, Interface.writer fun e => e.caller.bytes]
      (Pushing.function Pushing.writeCaller) where
  linked := .cons ⟨rfl, rfl⟩ (.cons ⟨rfl, rfl⟩ .nil)
  last := rfl
  ne_memory := by decide
  ne_setter := by decide
  params := rfl
  room := by decide +kernel
  code := code_of_text (moduleText_of_resolve
    (resolve_shipped ["bswap_m160", "CALLER"] ["useGas", "getCaller"] rfl
      (.cons rfl (.cons rfl .nil)) rfl (.cons rfl (.cons rfl .nil)))) ofChars?_caller
  isValid := by decide +kernel
  ne_entry := by decide

end OpcodeConformance.Opcode
