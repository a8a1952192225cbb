import OpcodeConformance.Proofs.Library.Resolution
import OpcodeConformance.Synthesis

namespace OpcodeConformance

namespace ModuleText

/-- A given declaration as it stands in a module. -/
def trimmed (s : String) : List Char := Text.trim s.toList

def declarations (items : List String) : List (List Char) := (distinct items).map trimmed

def enclose (entries : List (List Char)) : List Char :=
  "(module\n".toList ++ entries.flatMap (fun e => "  ".toList ++ e ++ "\n".toList) ++ ")".toList

variable {functions imports exports xs front : List String} {pages : Nat} {x : String}

theorem listsFirsts_distinct (xs : List String) : ListsFirsts xs (distinct xs) := by
  induction xs using List.reverseRecOn with
  | nil => exact ⟨fun _ => Iff.rfl, .nil⟩
  | append_singleton xs x ih =>
    rw [distinct_concat]
    split
    · rename_i hx
      exact ih.concat_of_mem (mem_distinct.mpr hx)
    · rename_i hx
      exact ih.concat_of_not_mem (mt mem_distinct.mp hx)

theorem distinct_insert_of_mem (hx : x ∈ front) (back : List String) :
    distinct (front ++ x :: back) = distinct (front ++ back) := by
  induction back using List.reverseRecOn with
  | nil => rw [distinct_concat, if_pos hx, List.append_nil]
  | append_singleton back y ih =>
    have hmem : y ∈ front ++ x :: back ↔ y ∈ front ++ back := by
      rw [List.mem_append, List.mem_append, List.mem_cons]
      constructor
      · rintro (hy | rfl | hy)
        · exact .inl hy
        · exact .inl hx
        · exact .inr hy
      · exact Or.imp_right .inr
    rw [← List.cons_append, ← List.append_assoc, ← List.append_assoc, distinct_concat,
      distinct_concat, ih]
    simp only [hmem]

/-- The entries are all different if no two declarations differ by blanks at their ends only. -/
theorem nodup_declarations_iff (xs : List String) :
    (declarations xs).Nodup ↔ ∀ x ∈ xs, ∀ y ∈ xs, trimmed x = trimmed y → x = y := by
  rw [declarations, List.nodup_map_iff_inj_on (listsFirsts_distinct xs).nodup]
  simp only [mem_distinct]

/-- One more declaration, which has no blanks at its ends, is an entry if it is new. -/
theorem declarations_concat (hx : trimmed x = x.toList) (xs : List String) :
    declarations (xs ++ [x]) =
      (distinct xs).map trimmed ++ if x ∈ xs then [] else [x.toList] := by
  rw [declarations, distinct_concat]
  split
  · rw [List.append_nil]
  · rw [List.map_append, List.map_singleton, hx]

/-- A declaration is one entry if none of the others differs from it by blanks only. -/
theorem count_declarations (hx : x ∈ xs) (hblank : ∀ y ∈ xs, trimmed y = trimmed x → y = x) :
    (declarations xs).count (trimmed x) = 1 := by
  have hcount : (declarations xs).count (trimmed x) = (distinct xs).count x := by
    rw [declarations, List.count, List.countP_map]
    refine List.countP_congr fun y hy => ?_
    simp only [Function.comp_apply, beq_iff_eq]
    exact ⟨hblank y (mem_distinct.mp hy), congrArg trimmed⟩
  rw [hcount, (listsFirsts_distinct xs).nodup.count, if_pos (mem_distinct.mpr hx)]

theorem build_eq (functions imports exports : List String) (pages : Nat) :
    build functions imports exports pages =
      if exports = [] then .error .noExports
      else .ok (String.ofList (enclose (declarations imports ++
        [stackPointer.toList, (memory pages).toList, memoryExport.toList] ++
        declarations functions ++ (distinct exports).map fun s => (functionExport s).toList))) := by
  cases exports <;> rfl

theorem build_eq_error_iff {f : LibraryError} :
    build functions imports exports pages = .error f ↔ exports = [] ∧ f = .noExports := by
  rw [build_eq]
  split
  · rename_i hexports
    simp [hexports, eq_comm]
  · rename_i hexports
    simp [hexports]

/-- A module stays the same if a declaration is repeated behind itself. -/
theorem build_insert_of_mem (functions imports exports : List String) (pages : Nat)
    (hx : x ∈ front) (back : List String) :
    build (front ++ x :: back) imports exports pages =
        build (front ++ back) imports exports pages ∧
      build functions (front ++ x :: back) exports pages =
        build functions (front ++ back) exports pages ∧
      build functions imports (front ++ x :: back) pages =
        build functions imports (front ++ back) pages := by
  have hnonempty : front ++ x :: back ≠ [] ∧ front ++ back ≠ [] :=
    ⟨List.append_ne_nil_of_right_ne_nil _ (List.cons_ne_nil _ _),
      List.append_ne_nil_of_left_ne_nil (List.ne_nil_of_mem hx) _⟩
  have hdeclarations : declarations (front ++ x :: back) = declarations (front ++ back) := by
    rw [declarations, declarations, distinct_insert_of_mem hx]
  simp only [build_eq, hdeclarations, distinct_insert_of_mem hx, hnonempty, true_and]

/-- What is emitted of given declarations: of those that are equal the first. They are repeated if
and only if two of them become equal when blanks at their ends are cut off. -/
theorem nodup_entries_of_build {text : String}
    (h : build functions imports exports pages = .ok text) :
    text = String.ofList (enclose (declarations imports ++
      [stackPointer.toList, (memory pages).toList, memoryExport.toList] ++
      declarations functions ++ (distinct exports).map fun s => (functionExport s).toList)) ∧
    ((declarations imports).Nodup ↔
      ∀ x ∈ imports, ∀ y ∈ imports, trimmed x = trimmed y → x = y) ∧
    ((declarations functions).Nodup ↔
      ∀ x ∈ functions, ∀ y ∈ functions, trimmed x = trimmed y → x = y) := by
  refine ⟨?_, nodup_declarations_iff imports, nodup_declarations_iff functions⟩
  rw [build_eq] at h
  split at h
  · cases h
  · cases h
    rfl

/-- Bodies that end with a line break, one of them given twice. -/
theorem nodup_entries_of_build_twice :
    ∃ text, build ["(func $A)\n", "(func $B)\n", "(func $A)\n"] [] ["A"] 1 = .ok text ∧
      (declarations ["(func $A)\n", "(func $B)\n", "(func $A)\n"]).Nodup := by
  obtain ⟨text, htext⟩ : ∃ text,
      build ["(func $A)\n", "(func $B)\n", "(func $A)\n"] [] ["A"] 1 = .ok text := ⟨_, rfl⟩
  obtain ⟨-, -, hnodup⟩ := nodup_entries_of_build htext
  exact ⟨text, htext, hnodup.mpr (by decide +kernel)⟩

/-- An import and a body that are given with a line break at their end and without stand in the
module twice. -/
theorem build_repeats_trimmed :
    (¬∀ (functions imports exports : List String) (pages : Nat) (text : String),
      build functions imports exports pages = .ok text →
        (declarations imports).Nodup ∧ (declarations functions).Nodup) ∧
    build ["(func $NOP)\n", "(func $NOP)"]
        ["(import \"a\" \"b\" (func))\n", "(import \"a\" \"b\" (func))"] ["NOP"] 1 =
      .ok (String.ofList (enclose ["(import \"a\" \"b\" (func))".toList,
        "(import \"a\" \"b\" (func))".toList, stackPointer.toList, (memory 1).toList,
        memoryExport.toList, "(func $NOP)".toList, "(func $NOP)".toList,
        (functionExport "NOP").toList])) := by
  have himports : declarations ["(import \"a\" \"b\" (func))\n", "(import \"a\" \"b\" (func))"] =
      ["(import \"a\" \"b\" (func))".toList, "(import \"a\" \"b\" (func))".toList] := rfl
  have hfunctions : declarations ["(func $NOP)\n", "(func $NOP)"] =
      ["(func $NOP)".toList, "(func $NOP)".toList] := rfl
  constructor
  · intro h
    obtain ⟨-, hnodup⟩ := h ["(func $NOP)\n", "(func $NOP)"]
      ["(import \"a\" \"b\" (func))\n", "(import \"a\" \"b\" (func))"] ["NOP"] 1 _ rfl
    rw [hfunctions] at hnodup
    exact (List.nodup_cons.mp hnodup).1 (.head _)
  · rw [build_eq, if_neg (List.cons_ne_nil _ _), himports, hfunctions]
    rfl

end ModuleText

namespace Library

open ModuleText Synthesis

variable {l : Library} {op : String} {texts imports : List String}

theorem moduleText_of_resolve (h : l.resolve [op] = .ok (texts, imports)) :
    moduleText l.compiler op =
      ModuleText.build (texts ++ [setStackPointer]) (imports ++ [gasImport]) [op] l.pages := by
  rw [moduleText]
  change (l.resolve [op] >>= _) = _
  rw [h]
  rfl

theorem exists_import_of_resolve {names : List String}
    (h : l.resolve names = .ok (texts, imports)) {t : String} (ht : t ∈ imports) :
    ∃ i, l.manifest.imports.get? i = some t := by
  obtain ⟨order, -, h⟩ := Results.bind_eq_ok h
  obtain ⟨bodies, -, h⟩ := Results.bind_eq_ok h
  obtain ⟨used, hused, h⟩ := Results.bind_eq_ok h
  cases h
  obtain ⟨u, -, hu⟩ := Results.exists_of_mem_mapM hused ht
  exact ⟨u.2, importText_eq_ok_iff.mp hu⟩

theorem trimmed_gasImport : trimmed gasImport = gasImport.toList := by decide +kernel

theorem trimmed_setStackPointer : trimmed setStackPointer = setStackPointer.toList := by
  decide +kernel

theorem gasImport_not_mem (pages : Nat) (op : String) :
    gasImport.toList ∉ [stackPointer.toList, (memory pages).toList, memoryExport.toList] ∧
      gasImport.toList ≠ (functionExport op).toList := by
  -- behind the bracket an import goes on with another letter
  have hmemory : (memory pages).toList[1]? = some 'm' := by
    change ("(memory " ++ Decimal.ofNat pages ++ ")").toList[1]? = _
    simp
  have hexport : (functionExport op).toList[1]? = some 'e' := by
    change ("(export \"" ++ op ++ "\" (func $" ++ op ++ "))").toList[1]? = _
    simp
  have hgas : gasImport.toList[1]? = some 'i' := by decide +kernel
  have hne {cs : List Char} {c : Char} (h : cs[1]? = some c) (hc : c ≠ 'i') :
      gasImport.toList ≠ cs := fun heq => hc (Option.some.inj (h.symm.trans (heq ▸ hgas)))
  refine ⟨?_, hne hexport (by decide)⟩
  simp only [List.mem_cons, List.not_mem_nil, or_false, not_or]
  exact ⟨hne (c := 'g') (by decide +kernel) (by decide), hne hmemory (by decide),
    hne (c := 'e') (by decide +kernel) (by decide)⟩

/-- The import for gas is emitted once if no declared import differs from it by blanks only. -/
theorem count_gasImport (h : l.resolve [op] = .ok (texts, imports))
    (hgas : ∀ i t, l.manifest.imports.get? i = some t → trimmed t = gasImport.toList →
      t = gasImport) :
    (declarations (imports ++ [gasImport])).count gasImport.toList = 1 := by
  rw [← trimmed_gasImport]
  refine count_declarations (List.mem_append_right _ (.head _)) fun y hy hsame => ?_
  rcases List.mem_append.mp hy with hy | hy
  · obtain ⟨i, hi⟩ := exists_import_of_resolve h hy
    exact hgas i y hi (hsame.trans trimmed_gasImport)
  · exact List.mem_singleton.mp hy

/-- The module of an opcode lists the imports that are resolved, the import for gas if it is not
among them, what every module has, the bodies that are resolved, the function that sets the stack
pointer if it is not among them, and the export of the opcode. Where no declared import differs from
the import for gas by blanks only, that one is imported once. No list of declarations is changed by
repeating one of them further behind, and every module is built that exports something. -/
theorem moduleText_lists_each_once :
    (∀ (l : Library) (op : String) (texts imports : List String),
      l.resolve [op] = .ok (texts, imports) → ∃ keptImports keptTexts : List String,
        ListsFirsts imports keptImports ∧ ListsFirsts texts keptTexts ∧
        let importEntries := keptImports.map trimmed ++
          if gasImport ∈ imports then [] else [gasImport.toList]
        let bodyEntries := keptTexts.map trimmed ++
          if setStackPointer ∈ texts then [] else [setStackPointer.toList]
        let entries := importEntries ++
          [stackPointer.toList, (memory l.pages).toList, memoryExport.toList] ++
          bodyEntries ++ [(functionExport op).toList]
        moduleText l.compiler op = .ok (String.ofList (enclose entries)) ∧
        ((∀ i t, l.manifest.imports.get? i = some t → trimmed t = gasImport.toList →
            t = gasImport) →
          importEntries.count gasImport.toList = 1 ∧
          entries.count gasImport.toList = 1 + bodyEntries.count gasImport.toList)) ∧
    (∀ (functions imports exports : List String) (pages : Nat) (front back : List String)
      (x : String), x ∈ front →
        ModuleText.build (front ++ x :: back) imports exports pages =
          ModuleText.build (front ++ back) imports exports pages ∧
        ModuleText.build functions (front ++ x :: back) exports pages =
          ModuleText.build functions (front ++ back) exports pages ∧
        ModuleText.build functions imports (front ++ x :: back) pages =
          ModuleText.build functions imports (front ++ back) pages) ∧
    ∀ (functions imports exports : List String) (pages : Nat) (f : LibraryError),
      ModuleText.build functions imports exports pages = .error f ↔
        exports = [] ∧ f = .noExports := by
  refine ⟨fun l op texts imports h => ?_,
    fun functions imports exports pages _ back _ hx =>
      build_insert_of_mem functions imports exports pages hx back,
    fun _ _ _ _ _ => build_eq_error_iff⟩
  refine ⟨distinct imports, distinct texts, listsFirsts_distinct imports,
    listsFirsts_distinct texts, ?_⟩
  intro importEntries bodyEntries entries
  have himports : declarations (imports ++ [gasImport]) = importEntries :=
    declarations_concat trimmed_gasImport imports
  have hbodies : declarations (texts ++ [setStackPointer]) = bodyEntries :=
    declarations_concat trimmed_setStackPointer texts
  constructor
  · rw [moduleText_of_resolve h, build_eq, if_neg (List.cons_ne_nil _ _), himports, hbodies]
    rfl
  · intro hgas
    have hcount : importEntries.count gasImport.toList = 1 := himports ▸ count_gasImport h hgas
    obtain ⟨hfixed, hexport⟩ := gasImport_not_mem l.pages op
    refine ⟨hcount, ?_⟩
    rw [List.count_append, List.count_append, List.count_append, hcount,
      List.count_eq_zero_of_not_mem hfixed,
      List.count_eq_zero_of_not_mem (mt List.mem_singleton.mp hexport), Nat.add_zero,
      Nat.add_zero]

/-- A function that declares the import for gas under another name than the one that it calls. -/
def shared : Library where
  manifest := {
    imports := .ofList [("gas", gasImport), ("charge", gasImport),
      ("print", "(import \"debug\" \"print\" (func))\n")]
    functions := .ofList [("A", ⟨["B"], ["print", "charge"]⟩), ("B", ⟨[], ["gas"]⟩)] }
  bodies := .ofList [("A", "(func $A)\n"), ("B", "(func $B)\n")]
  pages := ModuleText.defaultPages

theorem moduleText_lists_each_once_shared :
    shared.resolve ["A"] = .ok (["(func $B)\n", "(func $A)\n"],
      [gasImport, "(import \"debug\" \"print\" (func))\n", gasImport]) ∧
    ∃ entries, moduleText shared.compiler "A" = .ok (String.ofList (enclose entries)) ∧
      entries.count gasImport.toList = 1 := by
  have hresolve : shared.resolve ["A"] = .ok (["(func $B)\n", "(func $A)\n"],
      [gasImport, "(import \"debug\" \"print\" (func))\n", gasImport]) := rfl
  have hgas : ∀ i t, shared.manifest.imports.get? i = some t → trimmed t = gasImport.toList →
      t = gasImport := fun i t ht =>
    (by decide +kernel : ∀ e ∈ shared.manifest.imports.entries,
      trimmed e.2 = gasImport.toList → e.2 = gasImport) (i, t) (Table.mem_of_get? ht)
  obtain ⟨keptImports, keptTexts, -, htexts, htext, hcount⟩ :=
    moduleText_lists_each_once.1 shared "A" _ _ hresolve
  refine ⟨hresolve, _, htext, (hcount hgas).2.trans ?_⟩
  rw [List.count_eq_zero_of_not_mem]
  intro hmem
  rcases List.mem_append.mp hmem with hmem | hmem
  · obtain ⟨t, ht, hsame⟩ := List.mem_map.mp hmem
    exact (by decide +kernel : ∀ t ∈ ["(func $B)\n", "(func $A)\n"],
      trimmed t ≠ gasImport.toList) t ((htexts.mem_iff t).mp ht) hsame
  · revert hmem
    decide +kernel

end Library

end OpcodeConformance
