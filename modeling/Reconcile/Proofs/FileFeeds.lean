import Reconcile.Proofs.ItemsInTurn
import Reconcile.Proofs.KeptFixtures

/-!
# Feeds of readers

The feed of readers that are read as one is what they give in turn.  A file gives what its
serializer reads from its octets, and a fault in them under the name of the file.
-/

namespace Reconcile

variable {files : Store}

namespace Feed

/-! ## First failures -/

/-- How many records stand in front of the first failure. -/
def recordCount (feed : Feed) : Nat := feed.untilFailure.1.length

theorem untilFailure_throughFailure (feed : Feed) :
    feed.throughFailure.untilFailure = feed.untilFailure := by
  induction feed with
  | nil => rfl
  | cons item rest ih =>
      cases item with
      | error e => rfl
      | ok r =>
          rw [throughFailure, untilFailure, ih]
          rfl

theorem mem_of_mem_untilFailure {feed : Feed} {r : Record}
    (member : r ∈ feed.untilFailure.1) : .ok r ∈ feed := by
  induction feed with
  | nil => cases member
  | cons item rest ih =>
      cases item with
      | error e => cases member
      | ok first =>
          rcases List.mem_cons.mp member with rfl | later
          · exact List.mem_cons_self
          · exact List.mem_cons_of_mem _ (ih later)

theorem length_throughFailure_le (feed : Feed) :
    feed.throughFailure.length ≤ feed.recordCount + 1 := by
  induction feed with
  | nil => exact Nat.zero_le _
  | cons item rest ih =>
      cases item with
      | error e => exact Nat.le_refl 1
      | ok r => exact Nat.succ_le_succ ih

/-- Of two feeds the second one fails only if the first one does not. -/
theorem failure_append (first second : Feed) :
    (first ++ second).untilFailure.2 = first.untilFailure.2.or second.untilFailure.2 := by
  induction first with
  | nil => rfl
  | cons item rest ih =>
      cases item with
      | error e => rfl
      | ok r => exact ih

theorem recordCount_append_le (first second : Feed) :
    recordCount (first ++ second) ≤ first.recordCount + second.recordCount := by
  induction first with
  | nil => exact Nat.le_add_left _ _
  | cons item rest ih =>
      cases item with
      | error e => exact Nat.zero_le _
      | ok r =>
          change recordCount (rest ++ second) + 1 ≤ recordCount rest + 1 + recordCount second
          omega

end Feed

namespace Reader

/-! ## Sizes -/

/-- A reader gives no more records than its size. -/
theorem length_items_le_size (reader : Reader) :
    Feed.recordCount (reader.items files) ≤ reader.size files := by
  fun_induction reader.items files with
  | case1 reader r after told smaller ih =>
      exact Nat.succ_le_of_lt (Nat.lt_of_le_of_lt ih smaller)
  | case2 => exact Nat.zero_le _
  | case3 => exact Nat.zero_le _
  | case4 => exact Nat.zero_le _

theorem length_inTurn_le (readers : List Reader) :
    (inTurn files readers).length ≤
      readers.foldr (fun reader count => reader.size files + count) 0 + 1 := by
  have records : Feed.recordCount (readers.flatMap (items files)) ≤
      readers.foldr (fun reader count => reader.size files + count) 0 := by
    induction readers with
    | nil => exact Nat.le_refl 0
    | cons reader readers ih =>
        have first : Feed.recordCount (reader.items files) ≤ reader.size files :=
          reader.length_items_le_size
        have both := Feed.recordCount_append_le (reader.items files)
          (readers.flatMap (items files))
        rw [List.flatMap_cons, List.foldr_cons]
        omega
  have through := Feed.length_throughFailure_le (readers.flatMap (items files))
  rw [inTurn]
  omega

end Reader

namespace Input

/-! ## Feeds -/

/-- As many steps as there are items to come give all of them. -/
theorem take_eq_remaining {count : Nat} {i : Input}
    (enough : (i.remaining files).length ≤ count) : (i.take files count).1 = i.remaining files := by
  induction count generalizing i with
  | zero => exact (List.eq_nil_of_length_eq_zero (Nat.le_zero.mp enough)).symm
  | succ count ih =>
      obtain ⟨first, others, -⟩ := i.steps_next files
      rw [take]
      cases step : i.next files with
      | mk item after =>
          rw [step] at first others
          simp only at first others
          cases coming : i.remaining files with
          | nil =>
              rw [coming] at first
              subst first
              rfl
          | cons head rest =>
              rw [coming] at first others enough
              subst first
              have later : (after.remaining files).length ≤ count := by
                rw [others]
                exact Nat.le_of_succ_le_succ enough
              exact congrArg (head :: ·) ((ih later).trans others)

theorem feed_eq_inTurn (readers : List Reader) :
    (ofReaders readers).feed files = Reader.inTurn files readers :=
  take_eq_remaining (i := ofReaders readers) (Reader.length_inTurn_le readers)

end Input

namespace Reader

/-! ## Files -/

/-- What a serializer reads from a file, as items of a feed. -/
def fileItems (serializer : Serializer) (path : String) (octets : List UInt8) : Feed :=
  (serializer.read octets).map fun item => item.mapError fun fault => .access path fault

variable {serializer : Serializer} {path : String}

/-- What a reader gives that has read once from a serializer, and is left with the octets behind. -/
theorem items_of_readFile (octets : List UInt8) {reader : Reader} {ahead : List UInt8}
    (told : reader.next files = match serializer.next? ahead with
      | some (item, rest) =>
          (readFile.ofItem item, ⟨path, .file serializer path octets.length rest false, none⟩)
      | none => (.nothing, ⟨path, .file serializer path octets.length [] true, none⟩))
    (name : reader.name = path)
    (later : ∀ {r rest}, serializer.next? ahead = some (.ok r, rest) →
      items files ⟨path, .file serializer path octets.length rest false, none⟩ =
        fileItems serializer path rest) :
    reader.items files = fileItems serializer path ahead := by
  rw [fileItems, Serializer.read]
  split
  · rename_i last
    rw [last] at told
    rw [items_of_nothing told]
    rfl
  · rename_i fault rest next
    rw [next] at told
    rw [items_of_fault told, name]
    rfl
  · rename_i r rest next
    rw [next] at told
    rw [items_of_record told, later next]
    rfl

variable {octets : List UInt8}

/-- A file that was taken as a whole gives what is read from the octets that are still ahead. -/
theorem items_ahead (content : files.read path = .ok octets) (ahead : List UInt8) :
    items files ⟨path, .file serializer path octets.length ahead false, none⟩ =
      fileItems serializer path ahead := by
  induction bound : ahead.length using Nat.strongRecOn generalizing ahead with
  | ind bound ih =>
      subst bound
      refine items_of_readFile octets ?_ rfl
        fun next => ih _ (serializer.next?_shorter next) _ rfl
      cases next : serializer.next? ahead with
      | none =>
          simp [Reader.next, reachedEnd, read, readFile, next, content, serializer.next?_nil]
      | some taken => simp [Reader.next, reachedEnd, read, readFile, next]

theorem items_ofFile (content : files.read path = .ok octets) :
    (ofFile serializer path).items files = fileItems serializer path octets := by
  refine items_of_readFile octets ?_ rfl fun _ => items_ahead content _
  simp only [next, reachedEnd, ofFile, read, readFile, serializer.next?_nil, content,
    List.drop_zero, Bool.false_eq_true, if_false]
  cases serializer.next? octets with
  | none => rfl
  | some taken => rfl

/-! ## Fixtures -/

/-- Whether a reader reads a file of fixtures. -/
def ReadsLines (reader : Reader) : Prop :=
  ∃ path position ahead ended, reader.source = .file .jsonLines path position ahead ended

theorem isKept_of_next {reader after : Reader} {r : Record} (lines : reader.ReadsLines)
    (told : reader.next files = (.record r, after)) : r.isKept = true ∧ after.ReadsLines := by
  obtain ⟨name, source, problem⟩ := reader
  obtain ⟨path, position, ahead, ended, rfl⟩ := lines
  have taken {octets rest : List UInt8} {item : Except AccessFault Record}
      (next : Serializer.jsonLines.next? octets = some (item, rest))
      (given : readFile.ofItem item = .record r) : r.isKept = true := by
    cases item with
    | error fault => cases given
    | ok first =>
        obtain rfl := Reading.record.inj given
        exact Fixture.isKept_of_next? (Serializer.next?_jsonLines_eq_some.mp next)
  unfold next at told
  split at told
  · cases told
  · rename_i more
    obtain rfl : ended = false := Bool.eq_false_iff.mpr more
    simp only [read, readFile, Bool.false_eq_true, if_false] at told
    split at told
    · rename_i next
      obtain ⟨given, rfl⟩ := Prod.mk.inj told
      exact ⟨taken next given, path, _, _, _, rfl⟩
    · split at told
      · cases told
      · split at told
        · rename_i next
          obtain ⟨given, rfl⟩ := Prod.mk.inj told
          exact ⟨taken next given, path, _, _, _, rfl⟩
        · cases told

/-- Whatever is read from a file of fixtures is kept. -/
theorem isKept_of_mem_items {reader : Reader} {r : Record} (lines : reader.ReadsLines)
    (member : .ok r ∈ reader.items files) : r.isKept = true := by
  fun_induction reader.items files with
  | case1 reader first after told _ ih =>
      obtain ⟨kept, still⟩ := isKept_of_next lines told
      rcases List.mem_cons.mp member with same | later
      · rwa [Except.ok.inj same]
      · exact ih still later
  | _ => simp at member

theorem isKept_of_mem_feed {readers : List Reader} (lines : ∀ reader ∈ readers, reader.ReadsLines)
    {r : Record} (member : r ∈ ((Input.ofReaders readers).feed files).untilFailure.1) :
    r.isKept = true := by
  rw [Input.feed_eq_inTurn, inTurn, Feed.untilFailure_throughFailure] at member
  obtain ⟨reader, inside, item⟩ := List.mem_flatMap.mp (Feed.mem_of_mem_untilFailure member)
  exact isKept_of_mem_items (lines reader inside) item

end Reader

end Reconcile
