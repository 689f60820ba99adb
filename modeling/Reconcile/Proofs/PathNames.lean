import Reconcile.Store

/-!
# Names in paths

The names in a path that was joined are those of its directory and then the name that was put
behind it.
-/

namespace Reconcile

namespace Store

/-- A name that stands for itself in a path. -/
structure IsName (name : String) : Prop where
  oneName : '/' ∉ name.toList
  nonempty : name ≠ ""
  other : name ≠ "."

theorem parts_ne_nil (text : List Char) : parts text ≠ [] := by
  cases text with
  | nil => exact List.cons_ne_nil _ _
  | cons c rest =>
      rw [parts]
      split
      · exact List.cons_ne_nil _ _
      · exact List.cons_ne_nil _ _

theorem parts_of_notMem {text : List Char} (none_ : '/' ∉ text) : parts text = [text] := by
  induction text with
  | nil => rfl
  | cons c rest ih =>
      rw [List.mem_cons, not_or] at none_
      rw [parts, if_neg (fun same => none_.1 same.symm), ih none_.2]
      rfl

theorem parts_append (text rest : List Char) :
    parts (text ++ '/' :: rest) = parts text ++ parts rest := by
  induction text with
  | nil => exact if_pos rfl
  | cons c text ih =>
      rw [List.cons_append, parts, parts]
      split
      · rw [ih]
        rfl
      · rw [ih]
        cases cut : parts text with
        | nil => exact absurd cut (parts_ne_nil text)
        | cons first others => rfl

theorem notMem_of_mem_parts {text part : List Char} (member : part ∈ parts text) : '/' ∉ part := by
  induction text generalizing part with
  | nil =>
      rw [List.mem_singleton.mp member]
      exact List.not_mem_nil
  | cons c rest ih =>
      rw [parts] at member
      split at member
      · rcases List.mem_cons.mp member with rfl | later
        · exact List.not_mem_nil
        · exact ih later
      · rename_i other
        cases cut : parts rest with
        | nil => exact absurd cut (parts_ne_nil rest)
        | cons first others =>
            rw [cut] at member ih
            rcases List.mem_cons.mp member with rfl | later
            · rw [List.mem_cons, not_or]
              exact ⟨fun same => other same.symm, ih List.mem_cons_self⟩
            · exact ih (List.mem_cons_of_mem _ later)

theorem isName_of_mem_names {path name : String} (member : name ∈ names path) : IsName name := by
  obtain ⟨inParts, proper⟩ := List.mem_filter.mp member
  obtain ⟨part, inPath, rfl⟩ := List.mem_map.mp inParts
  have differs : String.ofList part ≠ "" ∧ String.ofList part ≠ "." := by simpa using proper
  refine ⟨?_, differs.1, differs.2⟩
  rw [String.toList_ofList]
  exact notMem_of_mem_parts inPath

/-- The names of a joined path: those of the directory and then the name. -/
theorem names_join {name : String} (proper : IsName name) (path : String) :
    names (join path name) = names path ++ [name] := by
  have single : ((parts name.toList).map String.ofList).filter
      (fun name => name ≠ "" ∧ name ≠ ".") = [name] := by
    rw [parts_of_notMem proper.oneName, List.map_singleton, String.ofList_toList,
      List.filter_cons_of_pos (by simp [proper.nonempty, proper.other])]
    rfl
  have joined (front : List Char) :
      ((parts (front ++ '/' :: name.toList)).map String.ofList).filter
          (fun name => name ≠ "" ∧ name ≠ ".") =
        ((parts front).map String.ofList).filter (fun name => name ≠ "" ∧ name ≠ ".") ++
          [name] := by
    rw [parts_append, List.map_append, List.filter_append, single]
  unfold join
  split
  · rename_i slash
    obtain ⟨front, text⟩ := List.getLast?_eq_some_iff.mp (eq_of_beq slash)
    have whole : (path ++ name).toList = front ++ '/' :: name.toList := by simp [text]
    -- A slash at the end of the path adds only an empty part, which is dropped.
    have bare : ((parts path.toList).map String.ofList).filter
        (fun name => name ≠ "" ∧ name ≠ ".") =
          ((parts front).map String.ofList).filter (fun name => name ≠ "" ∧ name ≠ ".") := by
      rw [text, parts_append, List.map_append, List.filter_append]
      simp [parts]
    rw [names, whole, joined, names, bare]
  · have text : (path ++ "/" ++ name).toList = path.toList ++ '/' :: name.toList := by simp
    rw [names, text, joined]
    rfl

theorem toList_join (path name : String) :
    ∃ between, (join path name).toList = path.toList ++ between ++ name.toList := by
  unfold join
  split
  · exact ⟨[], by simp⟩
  · exact ⟨['/'], by simp⟩

theorem start_join (s : Store) {path : String} (nonempty : path.isEmpty = false) (name : String) :
    s.start (join path name) = s.start path := by
  obtain ⟨between, text⟩ := toList_join path name
  rw [start, start, text]
  cases chars : path.toList with
  | nil =>
      rw [String.toList_eq_nil_iff.mp chars] at nonempty
      cases nonempty
  | cons c rest => rfl

theorem endsInSlash_join {name : String} (proper : IsName name) (path : String) :
    endsInSlash (join path name) = false := by
  obtain ⟨between, text⟩ := toList_join path name
  have some_ : name.toList ≠ [] := fun none_ => proper.nonempty (String.toList_eq_nil_iff.mp none_)
  rw [endsInSlash, text, List.getLast?_append, List.getLast?_eq_some_getLast some_]
  have differs : name.toList.getLast some_ ≠ '/' := by
    intro same
    exact proper.oneName (same ▸ List.getLast_mem some_)
  simpa using differs

theorem isEmpty_join {name : String} (proper : IsName name) (path : String) :
    (join path name).isEmpty = false := by
  obtain ⟨between, text⟩ := toList_join path name
  have differs : join path name ≠ "" := by
    intro empty
    have none_ : path.toList ++ between ++ name.toList = [] := by
      rw [← text, empty]
      rfl
    exact proper.nonempty (String.toList_eq_nil_iff.mp (List.append_eq_nil_iff.mp none_).2)
  simpa using differs

end Store

end Reconcile
