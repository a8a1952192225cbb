import Mathlib.Logic.Basic
import OpcodeConformance.FileTree
import OpcodeConformance.Proofs.Results

namespace OpcodeConformance

namespace Path

/-- What has an extension ends in it, with a point and at least one character in front. -/
theorem extension?_eq_some_iff {name ext : String} (hext : '.' ∉ ext.toList) :
    extension? name = some ext ↔ ∃ stem : String, stem ≠ "" ∧ name = stem ++ "." ++ ext := by
  constructor
  · intro h
    have hsplit := List.takeWhile_append_dropWhile (p := (· ≠ '.')) (l := name.toList.reverse)
    have hpoint := List.head?_dropWhile_not (· ≠ '.') name.toList.reverse
    unfold extension? at h
    dsimp only at h
    split at h
    · rename_i point last rest heq
      rw [heq] at hsplit hpoint
      obtain rfl : point = '.' := by simpa using hpoint
      obtain rfl := Option.some.inj h
      refine ⟨String.ofList (last :: rest).reverse, ?_, ?_⟩
      · simp
      · apply String.toList_inj.mp
        calc name.toList
            = (name.toList.reverse.takeWhile (· ≠ '.') ++ '.' :: last :: rest).reverse := by
              rw [hsplit, List.reverse_reverse]
          _ = _ := by simp
    · cases h
  · rintro ⟨stem, hstem, rfl⟩
    have hreverse : (stem ++ "." ++ ext).toList.reverse =
        ext.toList.reverse ++ '.' :: stem.toList.reverse := by simp
    have hkept : ∀ c ∈ ext.toList.reverse, decide (c ≠ '.') = true := by
      intro c hc
      refine decide_eq_true fun h => hext ?_
      rwa [← h, ← List.mem_reverse]
    obtain ⟨last, rest, hrest⟩ : ∃ last rest, stem.toList.reverse = last :: rest := by
      refine List.exists_cons_of_ne_nil fun h => hstem ?_
      simpa using h
    simp only [extension?, hreverse, hrest, List.dropWhile_append_of_pos hkept,
      List.takeWhile_append_of_pos hkept]
    simp

theorem parts_ne_nil (cs : List Char) : parts cs ≠ [] := by
  fun_cases parts cs <;> simp

theorem parts_append (cs ds : List Char) : parts (cs ++ '/' :: ds) = parts cs ++ parts ds := by
  fun_induction parts cs with
  | case1 => rfl
  | case2 cs ih =>
    rw [List.cons_append, parts, ih]
    rfl
  | case3 c cs hne p ps heq ih =>
    rw [heq] at ih
    rw [List.cons_append, parts, ih]
    · rfl
    · exact hne
  | case4 c cs hne heq ih => exact absurd heq (parts_ne_nil cs)

theorem parts_of_not_mem {cs : List Char} (h : '/' ∉ cs) : parts cs = [cs] := by
  fun_induction parts cs with
  | case1 => rfl
  | case2 cs ih => exact absurd (.head _) h
  | case3 c cs hne p ps heq ih =>
    rw [ih fun hmem => h (.tail _ hmem)] at heq
    cases heq
    rfl
  | case4 c cs hne heq ih => exact absurd heq (parts_ne_nil cs)

/-- A name that a folder can have for one of its entries. -/
structure IsName (name : String) : Prop where
  noSlash : '/' ∉ name.toList
  noNul : Char.ofNat 0 ∉ name.toList
  moves : isStill name = false
  notUp : name ≠ ".."
  short : name.utf8ByteSize ≤ FileTree.longestName

theorem join_eq {folder name : String} (h : '/' ∉ name.toList) (hfolder : folder ≠ "") :
    (∃ cs, folder.toList = cs ++ ['/'] ∧ (join folder name).toList = cs ++ '/' :: name.toList) ∨
      (join folder name).toList = folder.toList ++ '/' :: name.toList := by
  have habsolute : isAbsolute name = false := by
    refine decide_eq_false fun hhead => h ?_
    exact List.mem_of_head? hhead
  have hempty : folder.isEmpty = false := by simpa using hfolder
  unfold join
  rw [habsolute, hempty]
  by_cases hlast : folder.toList.getLast? = some '/'
  · left
    obtain ⟨cs, hcs⟩ := List.getLast?_eq_some_iff.mp hlast
    refine ⟨cs, hcs, ?_⟩
    simp [hcs]
  · right
    simp [hlast]

/-- Behind the path of a folder a name is one more step, or stands in the place of an empty one. -/
theorem steps_join {folder name : String} (h : '/' ∉ name.toList) (hfolder : folder ≠ "") :
    (∃ front, steps folder = front ++ [""] ∧ steps (join folder name) = front ++ [name]) ∨
      steps (join folder name) = steps folder ++ [name] := by
  have hname : (parts name.toList).map String.ofList = [name] := by
    rw [parts_of_not_mem h, List.map_singleton, String.ofList_toList]
  rcases join_eq h hfolder with ⟨cs, hcs, hjoin⟩ | hjoin
  · refine .inl ⟨(parts cs).map String.ofList, ?_, ?_⟩
    · rw [steps, hcs, parts_append, List.map_append]
      rfl
    · rw [steps, hjoin, parts_append, List.map_append, hname]
  · right
    rw [steps, hjoin, parts_append, List.map_append, hname]
    rfl

end Path

namespace FileTree

variable {t : FileTree} {folder name : String} {place : List String}

theorem walk_append (t : FileTree) (place xs ys : List String) :
    t.walk place (xs ++ ys) = t.walk place xs >>= fun q => t.walk q ys := by
  induction xs generalizing place with
  | nil => rfl
  | cons x xs ih =>
    rw [List.cons_append, walk, walk]
    cases t.entry? place with
    | none => rfl
    | some e =>
      cases e with
      | file content => rfl
      | folder =>
        dsimp only
        split_ifs
        · exact ih place
        · exact ih _
        · rfl
        · exact ih _

theorem walk_name (h : t.entry? place = some .folder) (hname : Path.IsName name) :
    t.walk place [name] = .ok (place ++ [name]) := by
  simp [walk, h, hname.moves, hname.notUp, Nat.not_lt.mpr hname.short]

/-- A path leads somewhere if the system takes it and something stands where its steps end. -/
theorem find_eq_ok_iff {path : String} {e : FileEntry} :
    t.find path = .ok (place, e) ↔ Char.ofNat 0 ∉ path.toList ∧ path ≠ "" ∧
      path.utf8ByteSize ≤ longestPath ∧ t.walk [] (Path.steps path) = .ok place ∧
      t.entry? place = some e := by
  unfold find
  dsimp only
  by_cases hnul : path.toList.contains (Char.ofNat 0) = true
  · rw [if_pos hnul]
    exact iff_of_false (fun h => nomatch h) fun h => h.1 (by simpa using hnul)
  rw [if_neg hnul]
  by_cases hempty : path.isEmpty = true
  · rw [if_pos hempty]
    exact iff_of_false (fun h => nomatch h) fun h => h.2.1 (by simpa using hempty)
  rw [if_neg hempty]
  by_cases hlong : path.utf8ByteSize > longestPath
  · rw [if_pos hlong]
    exact iff_of_false (fun h => nomatch h) fun h => Nat.not_lt.mpr h.2.2.1 hlong
  rw [if_neg hlong]
  constructor
  · intro h
    obtain ⟨q, hwalk, h⟩ := Results.bind_eq_ok h
    split at h
    · rename_i hentry
      cases h
      exact ⟨by simpa using hnul, by simpa using hempty, Nat.not_lt.mp hlong, hwalk, hentry⟩
    · cases h
  · rintro ⟨-, -, -, hwalk, hentry⟩
    simp only [hwalk, bind, Except.bind, hentry]
    rfl

theorem walk_join (h : t.find folder = .ok (place, .folder)) (hname : Path.IsName name) :
    t.walk [] (Path.steps (Path.join folder name)) = .ok (place ++ [name]) := by
  obtain ⟨-, hfolder, -, hwalk, hentry⟩ := find_eq_ok_iff.mp h
  rcases Path.steps_join hname.noSlash hfolder with ⟨front, hsteps, hjoin⟩ | hjoin
  · rw [hsteps, walk_append] at hwalk
    obtain ⟨q, hq, hwalk⟩ := Results.bind_eq_ok hwalk
    -- an empty step stays where it is
    have hstay : q = place := by
      rw [walk] at hwalk
      split at hwalk
      · exact Except.ok.inj hwalk
      · cases hwalk
      · cases hwalk
    rw [hjoin, walk_append, hq, hstay]
    exact walk_name hentry hname
  · rw [hjoin, walk_append, hwalk]
    exact walk_name hentry hname

theorem mem_of_entry? {e : FileEntry} (h : t.entry? (place ++ [name]) = some e) :
    (place ++ [name], e) ∈ t.entries := by
  unfold entry? at h
  rw [if_neg (by simp)] at h
  obtain ⟨before, after, heq, -⟩ := List.lookup_eq_some_iff.mp h
  rw [heq]
  exact List.mem_append_right _ (.head _)

theorem names_of_find {e : FileEntry} (h : t.find folder = .ok (place, e)) :
    ∃ listed, t.names folder = .ok listed ∧
      ∀ name, name ∈ listed ↔ ∃ e, (place ++ [name], e) ∈ t.entries := by
  refine ⟨_, by rw [names, h]; rfl, fun name => ?_⟩
  rw [List.mem_filterMap]
  constructor
  · rintro ⟨⟨found, e⟩, hmem, hname⟩
    obtain ⟨hplace, hlast⟩ := Option.ite_none_right_eq_some.mp hname
    obtain ⟨front, rfl⟩ := List.getLast?_eq_some_iff.mp hlast
    rw [List.dropLast_concat] at hplace
    exact ⟨e, hplace ▸ hmem⟩
  · rintro ⟨e, hmem⟩
    exact ⟨_, hmem, by simp⟩

theorem isFolder_iff {path : String} :
    t.isFolder path = true ↔ ∃ place, t.find path = .ok (place, .folder) := by
  unfold isFolder
  split
  · simp_all
  · rename_i hnone
    simpa using fun place h => hnone place h

theorem isFile_iff {path : String} :
    t.isFile path = true ↔ ∃ place content, t.find path = .ok (place, .file content) := by
  unfold isFile
  split
  · simp_all
  · rename_i hnone
    simpa using fun place content h => hnone place content h

/-- A name behind the path of a folder leads to what the folder has by that name. -/
theorem isFile_join (h : t.find folder = .ok (place, .folder)) (hname : Path.IsName name)
    (hlength : (Path.join folder name).utf8ByteSize ≤ longestPath) :
    t.isFile (Path.join folder name) = true ↔
      ∃ content, t.entry? (place ++ [name]) = some (.file content) := by
  have hwalk := walk_join h hname
  obtain ⟨hnul, hfolder, -⟩ := find_eq_ok_iff.mp h
  rw [isFile_iff]
  constructor
  · rintro ⟨q, content, hfind⟩
    obtain ⟨-, -, -, hq, hentry⟩ := find_eq_ok_iff.mp hfind
    cases hwalk.symm.trans hq
    exact ⟨content, hentry⟩
  · rintro ⟨content, hentry⟩
    refine ⟨place ++ [name], content, find_eq_ok_iff.mpr ⟨?_, ?_, hlength, hwalk, hentry⟩⟩
    · have hslash : Char.ofNat 0 ≠ '/' := by decide
      rcases Path.join_eq hname.noSlash hfolder with ⟨cs, hcs, hjoin⟩ | hjoin
      · rw [hcs] at hnul
        simp_all [hname.noNul]
      · simp_all [hname.noNul]
    · intro hempty
      rcases Path.join_eq hname.noSlash hfolder with ⟨cs, -, hjoin⟩ | hjoin <;>
        simp [hempty] at hjoin

end FileTree

end OpcodeConformance
