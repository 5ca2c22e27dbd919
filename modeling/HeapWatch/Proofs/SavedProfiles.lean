import HeapWatch.ProfileFile
import HeapWatch.Proofs.Canonical
import HeapWatch.Proofs.Codecs
import HeapWatch.Proofs.Files
/-!
# A saved profile is loaded again

Whatever a file held, once a profile is saved in it the canonical profile of the same readings is
loaded from it. No other file is touched, and none at all if the profile cannot be saved.
-/

namespace HeapWatch.Profile

open Json

theorem load_of_isValid {store : FileStore} {path : String} {text : Bytes}
    (hv : Text.Utf8.isValid text = true) (h : store.read path = .ok text) :
    load store path = ofBytes text := by
  have valid : store.readText path = .ok text := by
    simp [FileStore.readText, h, hv, bind, Except.bind, pure, Except.pure]
  rw [load, valid]

/-- A written profile is loaded, however it is spaced. -/
theorem load_of_read (p : Profile) {store : FileStore} {path : String} {text : Bytes}
    (ht : Spaced p.tokens text) (h : store.read path = .ok text) :
    load store path = .ok (ofReadings p.toList) := by
  rw [load_of_isValid (p.isValid_spaced ht) h, ofBytes, p.decode_spaced ht]

/-- **Saving and loading.** If a profile is saved in the file at a path, the canonical profile of
its readings is loaded from there, which is the profile itself exactly if it is canonical. The file
holds nothing else, and the others hold what they held, by their places and by the paths that lead
to them. If the profile cannot be saved, the files are as they were. -/
theorem load_saving (p : Profile) (store : FileStore) (path : String) :
    (∀ saved, (p.saving path).run store = .ok () saved →
      load saved path = .ok (ofReadings p.toList) ∧
      (load saved path = .ok p ↔ p.Canonical) ∧
      ∃ place, store.target path = .ok place ∧ saved.node? place = some (.file p.json) ∧
        (∀ q, q ≠ place → saved.node? q = store.node? q) ∧
        ∀ other held, store.read other = .ok held →
          store.target other = .ok place ∨ saved.read other = .ok held) ∧
    ∀ fault left, (p.saving path).run store = .error fault left →
      store.target path = .error fault ∧ left = store := by
  have spec := FileStore.overwrite_spec store path p.json
  refine ⟨fun saved hsaved => ?_, fun fault left hleft => ?_⟩
  · rw [show (FileStore.overwrite path p.json).run store = .ok () saved from hsaved] at spec
    obtain ⟨place, htarget, hplace, others⟩ := spec
    obtain ⟨-, -, -, -, -, hfree⟩ := FileStore.target_ok htarget
    have loaded : load saved path = .ok (ofReadings p.toList) :=
      p.load_of_read (spaced_compact p.tokens) (others.read_of_target hfree htarget hplace)
    refine ⟨loaded, ?_, place, htarget, hplace, others.others, fun other held h => ?_⟩
    · rw [loaded, ← ofReadings_eq_self_iff]
      exact ⟨Except.ok.inj, congrArg Except.ok⟩
    · exact others.read_other hfree h
  · rw [show (FileStore.overwrite path p.json).run store = .error fault left from hleft] at spec
    exact spec

/-- A profile out of order, with a slot listed twice and a size of 0, is saved where bytes that are
no text were, on a way out of the working directory and back, and the file beside it stays. It cannot
be saved beyond that file. -/
theorem load_saving_unsorted :
    let p : Profile := ⟨#[⟨7, 2⟩, ⟨3, 5⟩, ⟨3, 9⟩, ⟨4, 0⟩]⟩
    let store : FileStore :=
      .ofFiles [("run", List.replicate 200 0xFF), ("notes", [0x21])] ⟨["home", "made"]⟩
    (∃ saved, (p.saving "../made/run").run store = .ok () saved ∧
      load saved "../made/run" = .ok ⟨#[⟨3, 9⟩, ⟨7, 2⟩]⟩ ∧ load saved "../made/run" ≠ .ok p ∧
      saved.read "notes" = .ok [0x21]) ∧
    ∃ left, (p.saving "notes/run").run store = .error .notADirectory left ∧ left = store := by
  intro p store
  have canonical : ofReadings p.toList = ⟨#[⟨3, 9⟩, ⟨7, 2⟩]⟩ := by
    simp [p, ofReadings, ofList, toList, List.mergeSort, List.MergeSort.Internal.splitInTwo,
      Reading.le, Reading.firstOfEach, Reading.othersAfter]
  have here : store.target "../made/run" = .ok ⟨["home", "made", "run"]⟩ := by decide +kernel
  have there : store.target "notes/run" = .error .notADirectory := by decide +kernel
  constructor
  · cases hrun : (p.saving "../made/run").run store with
    | error fault left =>
      have failed := (load_saving p store "../made/run").2 fault left hrun
      cases here.symm.trans failed.1
    | ok _ saved =>
      obtain ⟨loaded, same, place, htarget, -, -, others⟩ :=
        (load_saving p store "../made/run").1 saved hrun
      refine ⟨saved, rfl, canonical ▸ loaded, mt same.1 (by decide), ?_⟩
      have notes : store.read "notes" = .ok [0x21] := by decide +kernel
      refine (others "notes" _ notes).resolve_left fun h => ?_
      cases here.symm.trans htarget
      exact absurd h (by decide +kernel)
  · cases hrun : (p.saving "notes/run").run store with
    | error fault left =>
      obtain ⟨failed, same⟩ := (load_saving p store "notes/run").2 fault left hrun
      cases there.symm.trans failed
      exact ⟨left, rfl, same⟩
    | ok _ saved =>
      obtain ⟨-, -, place, htarget, -⟩ := (load_saving p store "notes/run").1 saved hrun
      cases there.symm.trans htarget

end HeapWatch.Profile
