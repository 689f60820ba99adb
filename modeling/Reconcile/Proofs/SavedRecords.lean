import Reconcile.Command
import Reconcile.Proofs.RemainingRecords
import Reconcile.Proofs.ViewEffects

/-!
# Saved records

The file that a source is saved to is emptied before the records are read.  It holds the sorted
records unless the source reads that file itself: what was in it is lost then.
-/

namespace Reconcile

namespace Source

open Sorting (stable)

variable {c : Comparison} {s : Source} {w : Workspace} {path : String} {files : Store}
  {records : List Record}

/-- A file that can be written holds the sorted records that the source provides once the file is
empty, unless a run could not be written. -/
theorem save_cases (configured : s.comparison = some c)
    (emptied : w.files.write path [] = .ok files)
    (provides : s.Provides files c.serializer records) (reads : c.serializer.ReadsBack records) :
    ((s.save path w).result = .ok records.length ∧
      (s.save path w).workspace.files.read path =
        .ok (c.serializer.writeAll (stable c.compare records))) ∨
      (∃ e, (s.save path w).result = .error e) ∧ ¬ ∀ number, w.temp.refusal number = none := by
  have sameFiles := (alike_sortedView s { w with files := files }).files
  unfold save
  rw [required, configured]
  simp only [emptied, Outcome.andThen]
  obtain view | ⟨⟨e, failed⟩, refused⟩ :=
    Provides.sortedView_cases (w := { w with files := files }) provides reads configured
  · -- The view has read the emptied file, and only then the records are written.
    obtain ⟨after, written⟩ :=
      Store.exists_write_again emptied (c.serializer.writeAll (stable c.compare records))
    left
    simp only [view, Feed.untilFailure_ofRecords, sameFiles, written]
    refine ⟨congrArg Except.ok ?_, Store.read_write written⟩
    exact (Key.stable_perm c.compare records).length_eq
  · right
    simp only [failed]
    exact ⟨⟨e, rfl⟩, refused⟩

/-- What is left of the records is saved. -/
theorem exists_saved (configured : s.comparison = some c) (reads : c.serializer.ReadsBack records)
    (provides : s.Provides w.files c.serializer records) (stands : w.files.Stands w.files.base)
    (emptied : w.files.write path [] = .ok files) :
    ∃ left, left.Sublist records ∧ (left = records ↔ s.Spares w.files files c.serializer path) ∧
      (((s.save path w).result = .ok left.length ∧ ∃ octets,
        (s.save path w).workspace.files.read path = .ok octets ∧
          c.serializer.Gives octets (stable c.compare left)) ∨
        (∃ e, (s.save path w).result = .error e) ∧
          ¬ ∀ number, w.temp.refusal number = none) := by
  obtain ⟨left, leftProvided, inside, spared⟩ := provides.exists_left stands emptied
  have leftReads := reads.of_subset fun r member => inside.subset member
  refine ⟨left, inside, spared, ?_⟩
  obtain ⟨counted, written⟩ | failed := save_cases configured emptied leftProvided leftReads
  · have gives : c.serializer.Gives (c.serializer.writeAll (stable c.compare left))
        (stable c.compare left) :=
      leftReads _ fun r member => (Key.stable_perm c.compare left).mem_iff.mp member
    exact Or.inl ⟨counted, _, written, gives⟩
  · exact Or.inr failed

/-- Saving loses no record just if no file that the source reads records from is written to.  All
records are in the file then, in order, and are read back; only a run that cannot be written stands
in the way. -/
theorem save_exact (configured : s.comparison = some c) (reads : c.serializer.ReadsBack records)
    (provides : s.Provides w.files c.serializer records) (stands : w.files.Stands w.files.base)
    (emptied : w.files.write path [] = .ok files) :
    (s.Spares w.files files c.serializer path →
      ((s.save path w).result = .ok records.length ∧ ∃ octets,
        (s.save path w).workspace.files.read path = .ok octets ∧
          c.serializer.Gives octets (stable c.compare records)) ∨
        (∃ e, (s.save path w).result = .error e) ∧ ¬ ∀ number, w.temp.refusal number = none) ∧
    (¬ s.Spares w.files files c.serializer path →
      ∀ count, (s.save path w).result = .ok count → count < records.length) := by
  obtain ⟨left, inside, spared, saved⟩ := exists_saved configured reads provides stands emptied
  constructor
  · intro spares
    rwa [spared.mpr spares] at saved
  · intro loses count done
    have fewer : left.length < records.length :=
      Nat.lt_of_le_of_ne inside.length_le fun same => loses (spared.mp (inside.eq_of_length same))
    obtain ⟨counted, -⟩ | ⟨⟨e, failed⟩, -⟩ := saved
    · rwa [← Except.ok.inj (counted.symm.trans done)]
    · cases failed.symm.trans done

/-- A directory whose records are saved to a file in it that was empty. -/
theorem save_exact_directory :
    let c := Comparison.ofSchema (.ofTypes "pairs" [.int, .text])
    let records : List Record := [⟨[.int 2, .text "b"]⟩, ⟨[.int 1, .text "a"]⟩]
    let w := Workspace.ofFiles ⟨[], [(["d"], .directory), (["d", "b"], .file []),
      (["d", "a"], .file (Fixture.write records))]⟩ (.ofName "spill")
    let s := (Source.ofComparison c).load "d"
    c.serializer.ReadsBack records ∧ s.Provides w.files c.serializer records ∧
      w.files.Stands w.files.base ∧ (s.save "d/b" w).result = .ok 2 ∧ ∃ octets,
        (s.save "d/b" w).workspace.files.read "d/b" = .ok octets ∧
          c.serializer.Gives octets [⟨[.int 1, .text "a"]⟩, ⟨[.int 2, .text "b"]⟩] := by
  intro c records w s
  have layout (octets : List UInt8) :
      let files : Store :=
        ⟨[], [(["d"], .directory), (["d", "b"], .file []), (["d", "a"], .file octets)]⟩
      files.isDirectory "d" = true ∧ files.fileNames "d" = ["a", "b"] ∧
        files.read (Store.join "d" "a") = .ok octets ∧ files.read (Store.join "d" "b") = .ok [] ∧
          ∃ emptied, files.write "d/b" [] = .ok emptied ∧
            ¬ emptied.SamePlace (Store.join "d" "a") "d/b" := by
    intro files
    let emptied : Store :=
      ⟨[], [(["d", "b"], .file []), (["d"], .directory), (["d", "a"], .file octets)]⟩
    have leads : emptied.Leads (Store.join "d" "a") ["d", "a"] := rfl
    have leads' : emptied.Leads "d/b" ["d", "b"] := rfl
    have directory : files.Leads "d" ["d"] := rfl
    refine ⟨rfl, ?_, rfl, rfl, emptied, rfl, ?_⟩
    · rw [Store.fileNames_eq_insertionSort directory]
      rfl
    · rintro ⟨location, found, found'⟩
      have same : ["d", "a"] = ["d", "b"] := (leads.eq found).trans (found'.eq leads')
      exact absurd same (by decide)
  obtain ⟨isDirectory, names, content, nothing, emptied, written, away⟩ :=
    layout (Fixture.write records)
  have reads : c.serializer.ReadsBack records := Serializer.readsBack_jsonLines (by decide)
  have gives : FileGives w.files c.serializer (Store.join "d" "a") records :=
    ⟨_, content, Serializer.gives_writeAll_iff.mpr (by decide)⟩
  have empty : FileGives w.files c.serializer (Store.join "d" "b") [] :=
    ⟨[], nothing, c.serializer.gives_nil⟩
  have provides : s.Provides w.files c.serializer records := by
    change s.Provides w.files c.serializer [records, []].flatten
    refine Provides.directory rfl isDirectory ?_
    rw [show w.files.fileNames "d" = ["a", "b"] from names]
    exact List.Forall₂.cons gives (List.Forall₂.cons empty List.Forall₂.nil)
  have paths : inputPaths w.files "d" = [Store.join "d" "a", Store.join "d" "b"] := by
    rw [inputPaths, show w.files.isDirectory "d" = true from isDirectory,
      show w.files.fileNames "d" = ["a", "b"] from names]
    rfl
  have spares : s.Spares w.files emptied c.serializer "d/b" := by
    rw [spares_iff_loaded rfl, paths, List.forall_mem_cons, List.forall_mem_singleton]
    exact ⟨fun same => absurd same away, fun _ => empty⟩
  obtain ⟨saves, -⟩ := save_exact rfl reads provides w.files.stands_nil written
  have saved := (saves spares).resolve_right fun failed => failed.2 fun _ => rfl
  have inOrder : stable c.compare records =
      [⟨[.int 1, .text "a"]⟩, ⟨[.int 2, .text "b"]⟩] := by
    rw [Sorting.stable_eq_insertionSort]
    decide
  rw [inOrder] at saved
  exact ⟨reads, provides, w.files.stands_nil, saved⟩

/-- A source that is saved onto the file that it reads loses all its records, and counts none. -/
theorem save_samePlace (configured : s.comparison = some c) {own : String}
    (origin : s.origin = .files own) {octets : List UInt8}
    (content : w.files.read own = .ok octets) (emptied : w.files.write path [] = .ok files)
    (same : files.SamePlace own path) (takes : ∀ number, w.temp.refusal number = none) :
    (s.save path w).result = .ok 0 ∧ (s.save path w).workspace.files.read path = .ok [] := by
  have provides : s.Provides files c.serializer [] :=
    Provides.file origin ⟨[], Store.read_samePlace emptied content same, c.serializer.gives_nil⟩
  obtain ⟨counted, written⟩ :=
    (save_cases configured emptied provides c.serializer.readsBack_nil).resolve_right
      fun failed => failed.2 takes
  rw [stable, List.mergeSort_nil] at written
  exact ⟨counted, written⟩

/-- One record in a file that is saved onto itself. -/
theorem save_loses_records :
    let c := Comparison.ofSchema (.ofTypes "pairs" [.int, .text])
    let records : List Record := [⟨[.int 1, .text "a"]⟩]
    let w := Workspace.ofFiles ⟨[], [(["a"], .file (Fixture.write records))]⟩ (.ofName "spill")
    let s := (Source.ofComparison c).load "a"
    c.serializer.ReadsBack records ∧ s.Provides w.files c.serializer records ∧
      w.files.Stands w.files.base ∧ (s.save "a" w).result = .ok 0 ∧ 0 ≠ records.length ∧
      (s.save "a" w).workspace.files.read "a" = .ok [] := by
  intro c records w s
  have layout (octets : List UInt8) :
      let files : Store := ⟨[], [(["a"], .file octets)]⟩
      let emptied : Store := ⟨[], [(["a"], .file [])]⟩
      files.read "a" = .ok octets ∧ files.write "a" [] = .ok emptied ∧
        emptied.Leads "a" ["a"] := by
    exact ⟨rfl, rfl, rfl⟩
  obtain ⟨content, emptied, leads⟩ := layout (Fixture.write records)
  have gives : c.serializer.Gives (Fixture.write records) records :=
    Serializer.gives_writeAll_iff.mpr (by decide)
  have lost : (s.save "a" w).result = .ok 0 ∧
      (s.save "a" w).workspace.files.read "a" = .ok [] :=
    save_samePlace rfl rfl content emptied ⟨_, leads, leads⟩ fun _ => rfl
  exact ⟨Serializer.readsBack_jsonLines (by decide), .file rfl ⟨_, content, gives⟩,
    w.files.stands_nil, lost.1, by decide, lost.2⟩

end Source

namespace Command

open Sorting (stable)

theorem eq_ok_of_inContext {α : Type} {context : String} {result : Except Failure α} {a : α}
    (done : inContext context result = .ok a) : result = .ok a := by
  cases result with
  | ok b => exact congrArg Except.ok (Except.ok.inj done)
  | error e => cases done

/-- A sort that succeeds has saved its source. -/
theorem SortRequest.save_of_run {r : SortRequest} {w : Workspace} {schema : Schema} {count : Nat}
    (loads : readSchema w.files r.schema = .ok schema) (done : (r.run w).1 = .ok count) :
    ((r.source schema).save r.output w).result = .ok count ∧
      (r.run w).2.files = ((r.source schema).save r.output w).workspace.files := by
  have passes : inContext (loading r.schema) (.ok schema) = .ok schema := rfl
  unfold SortRequest.run at done ⊢
  rw [loads] at done ⊢
  simp only [passes] at done ⊢
  split at done
  · cases done
  · rename_i counted
    cases closed : (((r.source schema).save r.output w).source.close
        ((r.source schema).save r.output w).workspace).1 with
    | ok nothing =>
        simp only [closed] at done
        obtain rfl := Except.ok.inj done
        exact ⟨eq_ok_of_inContext counted, rfl⟩
    | error e =>
        simp only [closed] at done
        cases done

/-- What a sort that succeeds leaves in its output: all records, just if it reads none from the
file that it writes. -/
theorem SortRequest.exists_sorted {r : SortRequest} {w : Workspace} {schema : Schema}
    {files : Store} {records : List Record} {count : Nat}
    (loads : readSchema w.files r.schema = .ok schema)
    (reads : Serializer.jsonLines.ReadsBack records)
    (provides : (r.source schema).Provides w.files .jsonLines records)
    (stands : w.files.Stands w.files.base) (emptied : w.files.write r.output [] = .ok files)
    (done : (r.run w).1 = .ok count) :
    ∃ left, left.Sublist records ∧
      (left = records ↔ (r.source schema).Spares w.files files .jsonLines r.output) ∧
      count = left.length ∧ ∃ octets, (r.run w).2.files.read r.output = .ok octets ∧
        Serializer.jsonLines.Gives octets (stable (Comparison.ofSchema schema).compare left) := by
  obtain ⟨result, sameFiles⟩ := SortRequest.save_of_run loads done
  obtain ⟨left, inside, spared, ⟨counted, octets, written, gives⟩ | ⟨⟨e, failed⟩, -⟩⟩ :=
    Source.exists_saved (c := .ofSchema schema) (s := r.source schema) rfl reads provides stands
      emptied
  · exact ⟨left, inside, spared, Except.ok.inj (result.symm.trans counted), octets,
      sameFiles ▸ written, gives⟩
  · cases failed.symm.trans result

end Command

end Reconcile
