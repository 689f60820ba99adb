import Mathlib.Data.List.Sort
import Reconcile.Proofs.PathNames

/-!
# Writing to stores

A write that succeeds makes directories where nothing was and one file.  All other files stay as
they are, and every path leads to where it led.
-/

namespace Reconcile

namespace Store

variable {s t : Store}

/-! ## Entries -/

theorem entryAt?_put {location : List String} (below : location ≠ []) (entry : Entry) :
    (s.put location entry).entryAt? location = some entry := by
  rw [entryAt?, if_neg (by simpa using below), put]
  exact List.lookup_cons_self

theorem lookup_filter {location other : List String} (differs : other ≠ location)
    (entries : List (List String × Entry)) :
    (entries.filter fun (key, _) => key ≠ location).lookup other = entries.lookup other := by
  induction entries with
  | nil => rfl
  | cons first entries ih =>
      obtain ⟨key, entry⟩ := first
      by_cases same : key = location
      · have foreign : (other == key) = false := by simpa [same] using differs
        rw [List.filter_cons_of_neg (by simp [same]), ih, List.lookup_cons, foreign]
      · rw [List.filter_cons_of_pos (by simp [same]), List.lookup_cons, List.lookup_cons, ih]

theorem entryAt?_put_of_ne {location other : List String} (differs : other ≠ location)
    (entry : Entry) : (s.put location entry).entryAt? other = s.entryAt? other := by
  have foreign : (other == location) = false := by simpa using differs
  unfold entryAt? put
  simp only [List.lookup_cons, foreign, lookup_filter differs]

/-! ## Locations -/

/-- What was a directory is one still. -/
structure KeepsDirectories (s t : Store) : Prop where
  base : t.base = s.base
  directory : ∀ location, s.entryAt? location = some .directory →
    t.entryAt? location = some .directory

theorem KeepsDirectories.locate (keeps : KeepsDirectories s t) {start location : List String}
    {names : List String} (found : s.locate start names = .ok location) :
    t.locate start names = .ok location := by
  induction names generalizing start with
  | nil => exact found
  | cons name names ih =>
      rw [Store.locate] at found ⊢
      cases entry : s.entryAt? start with
      | none =>
          rw [entry] at found
          cases found
      | some entry_ =>
          cases entry_ with
          | file octets =>
              rw [entry] at found
              cases found
          | directory =>
              rw [entry] at found
              rw [keeps.directory start entry]
              exact ih found

theorem KeepsDirectories.trans {u : Store} (first : KeepsDirectories s t)
    (second : KeepsDirectories t u) : KeepsDirectories s u where
  base := second.base.trans first.base
  directory location here := second.directory location (first.directory location here)

theorem keepsDirectories_put {location : List String}
    (other : s.entryAt? location ≠ some .directory) (entry : Entry) :
    KeepsDirectories s (s.put location entry) where
  base := rfl
  directory here isDirectory := by
    rw [entryAt?_put_of_ne _ entry]
    · exact isDirectory
    · rintro rfl
      exact other isDirectory

/-! ## Directories on the way -/

/-- Directories were made where nothing was. -/
structure Grows (s t : Store) : Prop where
  base : t.base = s.base
  entries : ∃ made : List (List String),
    t.entries = made.map (fun location => (location, Entry.directory)) ++ s.entries ∧
      ∀ location ∈ made, s.entryAt? location = none

theorem Grows.refl (s : Store) : Grows s s := ⟨rfl, [], rfl, by simp⟩

theorem Grows.entryAt?_eq (grows : Grows s t) {location : List String} {entry : Entry}
    (here : s.entryAt? location = some entry) : t.entryAt? location = some entry := by
  obtain ⟨made, entries, fresh⟩ := grows.entries
  have notMade : location ∉ made := by
    intro member
    cases (fresh location member).symm.trans here
  have none_ : (made.map fun location => (location, Entry.directory)).lookup location = none := by
    rw [List.lookup_eq_none_iff]
    intro pair member
    obtain ⟨other, inMade, rfl⟩ := List.mem_map.mp member
    have differs : location ≠ other := by
      rintro rfl
      exact notMade inMade
    simpa using differs
  unfold entryAt? at here ⊢
  rw [entries, List.lookup_append, none_, Option.none_or]
  exact here

theorem Grows.keepsDirectories (grows : Grows s t) : KeepsDirectories s t :=
  ⟨grows.base, fun _ here => grows.entryAt?_eq here⟩

theorem Grows.trans {u : Store} (first : Grows s t) (second : Grows t u) : Grows s u := by
  obtain ⟨made, entries, fresh⟩ := first.entries
  obtain ⟨later, entries', fresh'⟩ := second.entries
  refine ⟨second.base.trans first.base, later ++ made, ?_, ?_⟩
  · rw [entries', entries, List.map_append, List.append_assoc]
  · intro location member
    rcases List.mem_append.mp member with inLater | inMade
    · cases here : s.entryAt? location with
      | none => rfl
      | some entry => cases (fresh' location inLater).symm.trans (first.entryAt?_eq here)
    · exact fresh location inMade

theorem grows_makeDirectory {start path : List String}
    (made : s.makeDirectory start path = .ok t) : Grows s t := by
  obtain ⟨location, -, done⟩ := exists_of_bind_eq_ok made
  split at done
  · cases done
  · rename_i absent
    cases done
    have fresh : s.entryAt? location = none := by simpa using absent
    have below : location ≠ [] := by
      rintro rfl
      cases fresh
    have unused : s.entries.lookup location = none := by
      rwa [entryAt?, if_neg (by simpa using below)] at fresh
    have kept : (s.entries.filter fun (other, _) => other ≠ location) = s.entries := by
      rw [List.filter_eq_self]
      intro pair member
      have differs := List.lookup_eq_none_iff.mp unused pair member
      exact decide_eq_true (bne_iff_ne.mp differs).symm
    refine ⟨rfl, [location], ?_, ?_⟩
    · rw [put, kept]
      rfl
    · intro other member
      rwa [List.mem_singleton.mp member]

theorem grows_ensureDirectory {start path : List String}
    (made : s.ensureDirectory start path = .ok t) : Grows s t := by
  unfold ensureDirectory at made
  split at made
  · rename_i done
    cases made
    exact grows_makeDirectory done
  · split at made
    · cases made
      exact Grows.refl s
    · cases made

theorem grows_makeDirectories {start path : List String}
    (made : s.makeDirectories start path = .ok t) : Grows s t := by
  induction path generalizing t with
  | nil =>
      cases made
      exact Grows.refl s
  | cons name before ih =>
      rw [makeDirectories] at made
      split at made
      · rename_i done
        cases made
        exact grows_ensureDirectory done
      · obtain ⟨between, first, second⟩ := exists_of_bind_eq_ok made
        exact (ih first).trans (grows_ensureDirectory second)
      · cases made

/-! ## Paths -/

/-- Where a path leads. -/
def Leads (s : Store) (path : String) (location : List String) : Prop :=
  s.locate (s.start path) (names path) = .ok location

/-- Two paths lead to one place. -/
def SamePlace (s : Store) (path path' : String) : Prop :=
  ∃ location, s.Leads path location ∧ s.Leads path' location

theorem Leads.eq {path : String} {location location' : List String} (leads : s.Leads path location)
    (leads' : s.Leads path location') : location = location' :=
  Except.ok.inj (leads.symm.trans leads')

theorem KeepsDirectories.leads (keeps : KeepsDirectories s t) {path : String}
    {location : List String} (leads : s.Leads path location) : t.Leads path location := by
  unfold Leads at leads ⊢
  rw [start, keeps.base]
  exact keeps.locate leads

theorem locate_append (start names others : List String) :
    s.locate start (names ++ others) =
      (s.locate start names).bind fun location => s.locate location others := by
  induction names generalizing start with
  | nil => rfl
  | cons name names ih =>
      rw [List.cons_append, Store.locate, Store.locate]
      cases s.entryAt? start with
      | none => rfl
      | some entry =>
          cases entry with
          | file octets => rfl
          | directory => exact ih _

theorem entryAt?_of_locate_cons {start location others : List String} {name : String}
    (found : s.locate start (name :: others) = .ok location) :
    s.entryAt? start = some .directory := by
  rw [Store.locate] at found
  split at found
  · cases found
  · cases found
  · assumption

/-- What stands at a path stands at the location that it leads to. -/
theorem find_eq_ok_iff {path : String} {entry : Entry} :
    s.find path = .ok entry ↔ path.isEmpty = false ∧
      (entry ≠ .directory → endsInSlash path = false) ∧
      ∃ location, s.Leads path location ∧ s.entryAt? location = some entry := by
  unfold find
  constructor
  · intro here
    by_cases empty : path.isEmpty = true
    · rw [if_pos empty] at here
      cases here
    · rw [if_neg empty] at here
      obtain ⟨location, leads, here⟩ := exists_of_bind_eq_ok here
      refine ⟨by simpa using empty, ?_, location, leads, ?_⟩
      · rintro notDirectory
        split at here
        · cases here
        · split at here
          · cases here
          · rename_i noSlash
            simpa using noSlash
        · cases here
          exact absurd rfl notDirectory
      · split at here
        · cases here
        · rename_i entry_
          split at here
          · cases here
          · cases here
            exact entry_
        · rename_i entry_
          cases here
          exact entry_
  · rintro ⟨nonempty, noSlash, location, leads, here⟩
    unfold Leads at leads
    rw [nonempty, leads]
    cases entry with
    | directory => simp [bind, Except.bind, here]
    | file octets => simp [bind, Except.bind, here, noSlash]

theorem read_eq_ok_iff {path : String} {octets : List UInt8} :
    s.read path = .ok octets ↔ s.find path = .ok (.file octets) := by
  constructor
  · intro content
    obtain ⟨entry, found, content⟩ := exists_of_bind_eq_ok content
    cases entry with
    | file other =>
        cases content
        exact found
    | directory => cases content
  · intro found
    rw [read, found]
    rfl

/-! ## Writing -/

/-- How a write goes: directories are made on the way, and a file is put where no directory is. -/
structure PutsFile (s between t : Store) (path : String) (octets : List UInt8)
    (location : List String) : Prop where
  grows : Grows s between
  leads : between.Leads path location
  noDirectory : between.entryAt? location ≠ some .directory
  noSlash : endsInSlash path = false
  nonempty : path.isEmpty = false
  after : t = between.put location (.file octets)

theorem exists_putsFile {path : String} {octets : List UInt8} (done : s.write path octets = .ok t) :
    ∃ between location, PutsFile s between t path octets location := by
  unfold write at done
  by_cases empty : path.isEmpty = true
  · rw [if_pos empty] at done
    cases done
  · rw [if_neg empty] at done
    obtain ⟨between, made, done⟩ := exists_of_bind_eq_ok done
    obtain ⟨location, found, done⟩ := exists_of_bind_eq_ok done
    have grows := grows_makeDirectories made
    have leads : between.Leads path location := by
      unfold Leads
      rw [start, grows.base]
      exact found
    split at done
    · cases done
    · rename_i noDirectory
      split at done
      · cases done
      · rename_i noSlash
        cases done
        exact ⟨between, location, grows, leads, noDirectory, by simpa using noSlash,
          by simpa using empty, rfl⟩

section

variable {between : Store} {path : String} {octets : List UInt8} {location : List String}

theorem PutsFile.keepsDirectories (puts : PutsFile s between t path octets location) :
    KeepsDirectories between t :=
  puts.after ▸ keepsDirectories_put puts.noDirectory _

theorem PutsFile.leads_after (puts : PutsFile s between t path octets location) :
    t.Leads path location :=
  puts.keepsDirectories.leads puts.leads

theorem PutsFile.entryAt?_eq (puts : PutsFile s between t path octets location) :
    t.entryAt? location = some (.file octets) := by
  have below : location ≠ [] := by
    rintro rfl
    exact puts.noDirectory rfl
  rw [puts.after, entryAt?_put below]

theorem PutsFile.find_eq (puts : PutsFile s between t path octets location) {other : String}
    (nonempty : other.isEmpty = false) (noSlash : endsInSlash other = false)
    (leads : t.Leads other location) : t.find other = .ok (.file octets) :=
  find_eq_ok_iff.mpr ⟨nonempty, fun _ => noSlash, location, leads, puts.entryAt?_eq⟩

end

variable {path : String} {octets : List UInt8}

theorem keepsDirectories_write (done : s.write path octets = .ok t) : KeepsDirectories s t := by
  obtain ⟨between, location, puts⟩ := exists_putsFile done
  exact puts.grows.keepsDirectories.trans puts.keepsDirectories

/-- The octets that were written can be read. -/
theorem read_write (done : s.write path octets = .ok t) : t.read path = .ok octets := by
  obtain ⟨between, location, puts⟩ := exists_putsFile done
  exact read_eq_ok_iff.mpr (puts.find_eq puts.nonempty puts.noSlash puts.leads_after)

/-- By whichever path, what was written can be read where it was written. -/
theorem read_samePlace (done : s.write path octets = .ok t) {other : String} {before : List UInt8}
    (content : s.read other = .ok before) (same : t.SamePlace other path) :
    t.read other = .ok octets := by
  obtain ⟨between, location, puts⟩ := exists_putsFile done
  obtain ⟨nonempty, noSlash, -⟩ := find_eq_ok_iff.mp (read_eq_ok_iff.mp content)
  obtain ⟨there, leads, leads'⟩ := same
  obtain rfl := leads'.eq puts.leads_after
  exact read_eq_ok_iff.mpr (puts.find_eq nonempty (noSlash Entry.noConfusion) leads)

/-- Files elsewhere are read as before. -/
theorem read_apart (done : s.write path octets = .ok t) {other : String} {before : List UInt8}
    (content : s.read other = .ok before) (apart : ¬ t.SamePlace other path) :
    t.read other = .ok before := by
  have keeps := keepsDirectories_write done
  obtain ⟨between, location, puts⟩ := exists_putsFile done
  obtain ⟨nonempty, noSlash, there, leads, stands⟩ :=
    find_eq_ok_iff.mp (read_eq_ok_iff.mp content)
  have differs : there ≠ location := by
    rintro rfl
    exact apart ⟨there, keeps.leads leads, puts.leads_after⟩
  refine read_eq_ok_iff.mpr
    (find_eq_ok_iff.mpr ⟨nonempty, noSlash, there, keeps.leads leads, ?_⟩)
  rw [puts.after, entryAt?_put_of_ne differs]
  exact puts.grows.entryAt?_eq stands

/-! ## Writing again -/

/-- What is a directory already stays one. -/
theorem ensureDirectory_of_directory {start path location : List String}
    (found : s.locate start path = .ok location) (here : s.entryAt? location = some .directory) :
    s.ensureDirectory start path = .ok s := by
  have leads : s.leadsToDirectory start path = true := by
    rw [leadsToDirectory, found]
    exact decide_eq_true here
  have exists_ : s.makeDirectory start path = .error .alreadyExists := by
    rw [makeDirectory, found]
    exact if_pos (by rw [here]; rfl)
  rw [ensureDirectory, exists_]
  exact if_pos leads

/-- On the way to a location all directories are there. -/
theorem makeDirectories_of_locate {start names location : List String}
    (found : s.locate start names = .ok location) :
    s.makeDirectories start names.reverse.tail = .ok s := by
  rcases List.eq_nil_or_concat names with rfl | ⟨front, last, rfl⟩
  · rfl
  · rw [List.concat_eq_append, locate_append] at found
    obtain ⟨parent, leads, found⟩ := exists_of_bind_eq_ok found
    rw [List.concat_eq_append, List.reverse_concat, List.tail_cons]
    cases before : front.reverse with
    | nil => rfl
    | cons name others =>
        rw [makeDirectories, ← before, List.reverse_reverse,
          ensureDirectory_of_directory leads (entryAt?_of_locate_cons found)]

/-- What was written can be replaced. -/
theorem exists_write_again (done : s.write path octets = .ok t) (others : List UInt8) :
    ∃ u, t.write path others = .ok u := by
  obtain ⟨between, location, puts⟩ := exists_putsFile done
  have found : t.locate (t.start path) (names path) = .ok location := puts.leads_after
  have made := makeDirectories_of_locate found
  refine ⟨t.put location (.file others), ?_⟩
  simp only [write, puts.nonempty, made, found, puts.entryAt?_eq, puts.noSlash, bind, Except.bind,
    Bool.false_eq_true, if_false]

/-! ## Files of directories -/

/-- A location is a directory, and so is all that leads to it. -/
def Stands (s : Store) (location : List String) : Prop :=
  ∀ front, front <+: location → s.entryAt? front = some .directory

theorem stands_nil (s : Store) : s.Stands [] := by
  intro front before
  rw [List.prefix_nil.mp before]
  rfl

/-- From where directories stand, a path leads to such a place or to a name in one. -/
theorem locate_cases {start location : List String} (stands : s.Stands start)
    {names : List String} (found : s.locate start names = .ok location) :
    s.entryAt? location = some .directory ∨
      ∃ directory name, location = directory ++ [name] ∧ name ∈ names ∧ name ≠ ".." := by
  -- Leading upwards stays among directories, and only the last name need not stand.
  induction names generalizing start with
  | nil =>
      cases found
      exact Or.inl (stands location (List.prefix_refl location))
  | cons name names ih =>
      rw [Store.locate, stands start (List.prefix_refl start)] at found
      simp only at found
      split at found
      · have shorter : s.Stands start.dropLast := fun front before =>
          stands front (before.trans (List.dropLast_prefix start))
        rcases ih shorter found with here | ⟨directory, last, same, member, proper⟩
        · exact Or.inl here
        · exact Or.inr ⟨directory, last, same, List.mem_cons_of_mem name member, proper⟩
      · rename_i proper
        cases names with
        | nil =>
            cases found
            exact Or.inr ⟨start, name, rfl, List.mem_cons_self, proper⟩
        | cons second names =>
            have here := entryAt?_of_locate_cons found
            have longer : s.Stands (start ++ [name]) := by
              intro front before
              rcases List.prefix_concat_iff.mp before with rfl | shorter
              · exact here
              · exact stands front shorter
            rcases ih longer found with here | ⟨directory, last, same, member, proper⟩
            · exact Or.inl here
            · exact Or.inr ⟨directory, last, same, List.mem_cons_of_mem name member, proper⟩

theorem KeepsDirectories.stands (keeps : KeepsDirectories s t) {location : List String}
    (stands : s.Stands location) : t.Stands location :=
  fun front before => keeps.directory front (stands front before)

theorem stands_start (stands : s.Stands s.base) (path : String) : s.Stands (s.start path) := by
  unfold start
  split
  · exact s.stands_nil
  · exact stands

theorem fileAt?_eq_some {location : List String} {pair : List String × Entry} {name : String}
    (file : fileAt? location pair = some name) : pair.1 = location ++ [name] := by
  obtain ⟨other, entry⟩ := pair
  cases entry with
  | directory => cases file
  | file octets =>
      simp only [fileAt?] at file
      split at file
      · rename_i same
        obtain ⟨front, rfl⟩ := List.getLast?_eq_some_iff.mp file
        rw [List.dropLast_concat] at same
        rw [same]
      · cases file

/-- Leaving out entries that are no files of a location leaves its files. -/
theorem filterMap_fileAt?_filter {location left : List String}
    {entries : List (List String × Entry)}
    (noFile : ∀ pair ∈ entries, pair.1 = left → fileAt? location pair = none) :
    (entries.filter fun (other, _) => other ≠ left).filterMap (fileAt? location) =
      entries.filterMap (fileAt? location) := by
  induction entries with
  | nil => rfl
  | cons pair entries ih =>
      have later := ih fun pair member => noFile pair (List.mem_cons_of_mem _ member)
      by_cases same : pair.1 = left
      · rw [List.filter_cons_of_neg (by simp [same]), later,
          List.filterMap_cons_none (noFile pair List.mem_cons_self same)]
      · rw [List.filter_cons_of_pos (by simp [same]), List.filterMap_cons, List.filterMap_cons,
          later]

/-- Putting a file at a name changes no other name of a directory. -/
theorem filter_filterMap_fileAt?_filter (location : List String) (name : String)
    (entries : List (List String × Entry)) :
    ((entries.filter fun (other, _) => other ≠ location ++ [name]).filterMap
        (fileAt? location)).filter (· ≠ name) =
      (entries.filterMap (fileAt? location)).filter (· ≠ name) := by
  induction entries with
  | nil => rfl
  | cons pair entries ih =>
      by_cases same : pair.1 = location ++ [name]
      · rw [List.filter_cons_of_neg (by simp [same]), ih]
        cases file : fileAt? location pair with
        | none => rw [List.filterMap_cons_none file]
        | some other =>
            have there := same.symm.trans (fileAt?_eq_some file)
            obtain rfl := List.singleton_inj.mp (List.append_cancel_left there)
            rw [List.filterMap_cons_some file, List.filter_cons_of_neg (by simp)]
      · rw [List.filter_cons_of_pos (by simp [same])]
        cases file : fileAt? location pair with
        | none => rw [List.filterMap_cons_none file, List.filterMap_cons_none file, ih]
        | some other =>
            rw [List.filterMap_cons_some file, List.filterMap_cons_some file, List.filter_cons,
              List.filter_cons, ih]

theorem Grows.filterMap_fileAt? (grows : Grows s t) (location : List String) :
    t.entries.filterMap (fileAt? location) = s.entries.filterMap (fileAt? location) := by
  obtain ⟨made, entries, -⟩ := grows.entries
  have none_ : (made.map fun location => (location, Entry.directory)).filterMap
      (fileAt? location) = [] := by
    rw [List.filterMap_eq_nil_iff]
    intro pair member
    obtain ⟨other, -, rfl⟩ := List.mem_map.mp member
    rfl
  rw [entries, List.filterMap_append, none_, List.nil_append]

theorem exists_of_isDirectory {directory : String} (stands : s.isDirectory directory = true) :
    directory.isEmpty = false ∧ ∃ location,
      s.Leads directory location ∧ s.entryAt? location = some .directory := by
  unfold isDirectory at stands
  split at stands
  · rename_i here
    obtain ⟨nonempty, -, location, leads, entry⟩ := find_eq_ok_iff.mp here
    exact ⟨nonempty, location, leads, entry⟩
  · cases stands

theorem isDirectory_write (done : s.write path octets = .ok t) {directory : String}
    (stands : s.isDirectory directory = true) : t.isDirectory directory = true := by
  have keeps := keepsDirectories_write done
  obtain ⟨nonempty, location, leads, here⟩ := exists_of_isDirectory stands
  have still : t.find directory = .ok .directory :=
    find_eq_ok_iff.mpr ⟨nonempty, fun other => absurd rfl other, location, keeps.leads leads,
      keeps.directory location here⟩
  rw [isDirectory, still]

theorem fileNames_eq {directory : String} {location : List String}
    (leads : s.Leads directory location) :
    s.fileNames directory =
      (s.entries.filterMap (fileAt? location)).mergeSort fun a b => a ≤ b := by
  unfold Leads at leads
  rw [fileNames, leads]

theorem fileNames_eq_insertionSort {directory : String} {location : List String}
    (leads : s.Leads directory location) :
    s.fileNames directory = (s.entries.filterMap (fileAt? location)).insertionSort (· ≤ ·) := by
  rw [fileNames_eq leads]
  exact List.mergeSort_eq_insertionSort (· ≤ ·) _

/-- A name in a directory leads there. -/
theorem leads_join {directory name : String} {location : List String}
    (nonempty : directory.isEmpty = false) (leads : s.Leads directory location)
    (here : s.entryAt? location = some .directory) (isName : IsName name) (proper : name ≠ "..") :
    s.Leads (join directory name) (location ++ [name]) := by
  unfold Leads at leads ⊢
  rw [start_join s nonempty, names_join isName, locate_append, leads]
  simp only [Except.bind, locate, here, if_neg proper]

/-- From where directories stand, a file is put under a name. -/
theorem PutsFile.exists_name {between : Store} {location : List String}
    (puts : PutsFile s between t path octets location) (stands : s.Stands s.base) :
    ∃ parent name, location = parent ++ [name] ∧ IsName name ∧ name ≠ ".." := by
  have base : between.Stands between.base := by
    rw [puts.grows.base]
    exact puts.grows.keepsDirectories.stands stands
  obtain ⟨parent, name, same, inPath, proper⟩ :=
    (locate_cases (stands_start base path) puts.leads).resolve_left puts.noDirectory
  exact ⟨parent, name, same, isName_of_mem_names inPath, proper⟩

theorem filter_mergeSort_names (p : String → Bool) (names : List String) :
    (names.mergeSort fun a b => a ≤ b).filter p = (names.filter p).mergeSort fun a b => a ≤ b := by
  have ordered (names : List String) : (names.mergeSort fun a b => a ≤ b).Pairwise (· ≤ ·) := by
    have sorted : (names.mergeSort fun a b => a ≤ b).Pairwise fun a b => decide (a ≤ b) :=
      List.pairwise_mergeSort (by simpa using fun a b c => String.le_trans)
        (by simpa using String.le_total) names
    simpa using sorted
  have same : ((names.mergeSort fun a b => a ≤ b).filter p).Perm
      ((names.filter p).mergeSort fun a b => a ≤ b) :=
    ((List.mergeSort_perm names _).filter p).trans (List.mergeSort_perm (names.filter p) _).symm
  exact same.eq_of_pairwise (fun _ _ _ _ => String.le_antisymm) ((ordered names).filter p)
    (ordered (names.filter p))

/-- A write changes no file names of a directory but one, and that leads where was written. -/
theorem fileNames_write (done : s.write path octets = .ok t) (stands : s.Stands s.base)
    {directory : String} (isDirectory : s.isDirectory directory = true) :
    t.fileNames directory = s.fileNames directory ∨ ∃ name,
      t.read (join directory name) = .ok octets ∧
        (t.fileNames directory).filter (· ≠ name) = (s.fileNames directory).filter (· ≠ name) := by
  have keeps := keepsDirectories_write done
  obtain ⟨between, location, puts⟩ := exists_putsFile done
  obtain ⟨parent, name, rfl, isName, proper⟩ := puts.exists_name stands
  obtain ⟨nonempty, place, leads, isPlace⟩ := exists_of_isDirectory isDirectory
  have leads' := keeps.leads leads
  rw [fileNames_eq leads, fileNames_eq leads', puts.after, ← puts.grows.filterMap_fileAt?]
  by_cases inside : parent = place
  · subst inside
    have found : t.find (join directory name) = .ok (.file octets) :=
      puts.find_eq (isEmpty_join isName directory) (endsInSlash_join isName directory)
        (leads_join nonempty leads' (keeps.directory parent isPlace) isName proper)
    refine Or.inr ⟨name, ?_, ?_⟩
    · rw [← puts.after]
      exact read_eq_ok_iff.mpr found
    · have file : fileAt? parent (parent ++ [name], .file octets) = some name := by
        simp [fileAt?]
      rw [filter_mergeSort_names, filter_mergeSort_names, put, List.filterMap_cons_some file,
        List.filter_cons_of_neg (by simp), filter_filterMap_fileAt?_filter]
  · left
    have noName : fileAt? place (parent ++ [name], .file octets) = none := by
      simp [fileAt?, inside]
    have noFile : ∀ pair ∈ between.entries, pair.1 = parent ++ [name] →
        fileAt? place pair = none := by
      intro pair _ same
      refine Option.eq_none_iff_forall_ne_some.mpr fun other file => inside ?_
      exact (List.append_inj' (same.symm.trans (fileAt?_eq_some file)) rfl).1
    rw [put, List.filterMap_cons_none noName, filterMap_fileAt?_filter noFile]

end Store

end Reconcile
