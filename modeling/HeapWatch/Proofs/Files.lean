import HeapWatch.FileStore
/-!
# A written file and the others

A file that was written holds what was written and nothing of what it held before. It is found at
the path that it was written at, and every other file is as it was.
-/

namespace HeapWatch.FileStore

/-- Files that are the same at all places but one, for a program that works where it worked. -/
structure SameBut (p : Place) (store store' : FileStore) : Prop where
  working : store'.working = store.working
  others : ∀ q, q ≠ p → store'.node? q = store.node? q

theorem SameBut.trans {p : Place} {s s' s'' : FileStore} (h : SameBut p s s')
    (h' : SameBut p s' s'') : SameBut p s s'' :=
  ⟨h'.working.trans h.working, fun q hq => (h'.others q hq).trans (h.others q hq)⟩

/-! ## Putting one file in place -/

theorem node?_put_self (store : FileStore) {p : Place} (node : FileNode)
    (hp : ¬ p.holds store.working) : (store.put p node).node? p = some node := by
  rw [node?, working_put, if_neg hp]
  exact List.lookup_cons_self

theorem lookup_filter_ne {nodes : List (Place × FileNode)} {p q : Place} (h : q ≠ p) :
    (nodes.filter fun entry => entry.1 != p).lookup q = nodes.lookup q := by
  induction nodes with
  | nil => rfl
  | cons entry nodes ih =>
    obtain ⟨place, node⟩ := entry
    by_cases hp : place = p
    · have hq : (q == place) = false := beq_false_of_ne (hp ▸ h)
      rw [List.filter_cons_of_neg (by simp [hp]), ih, List.lookup_cons, hq]
    · rw [List.filter_cons_of_pos (by simp [hp]), List.lookup_cons, List.lookup_cons, ih]

theorem sameBut_put (store : FileStore) (p : Place) (node : FileNode) :
    SameBut p store (store.put p node) := by
  refine ⟨rfl, fun q hq => ?_⟩
  have hb : (q == p) = false := beq_false_of_ne hq
  rw [node?, node?, working_put, put, List.lookup_cons, hb, lookup_filter_ne hq]

/-! ## Where paths lead -/

theorem node?_of_find {store : FileStore} {p : Place} {node : FileNode}
    (h : store.find p = .ok node) : p.isTooLong = false ∧ store.node? p = some node := by
  unfold find at h
  split at h
  · cases h
  · rename_i hlong
    split at h
    · cases h
    · rename_i hnode
      cases h
      exact ⟨Bool.eq_false_iff.2 hlong, hnode⟩

theorem node?_of_find_notFound {store : FileStore} {p : Place}
    (h : store.find p = .error .notFound) : p.isTooLong = false ∧ store.node? p = none := by
  unfold find at h
  split at h
  · cases h
  · rename_i hlong
    split at h
    · rename_i hnode
      exact ⟨Bool.eq_false_iff.2 hlong, hnode⟩
    · cases h

theorem find_of_node? {store : FileStore} {p : Place} {node : FileNode}
    (hl : p.isTooLong = false) (h : store.node? p = some node) : store.find p = .ok node := by
  rw [find, hl, if_neg Bool.false_ne_true, h]

theorem node?_of_step {store : FileStore} {q r : Place} {s : PathStep}
    (h : store.step q s = .ok r) : store.node? q = some .directory := by
  unfold step at h
  split at h
  · cases h
  · cases h
  · rename_i hfind
    exact (node?_of_find hfind).2

theorem find_congr {store store' : FileStore} {q : Place}
    (h : store'.node? q = store.node? q) : store'.find q = store.find q := by
  rw [find, find, h]

variable {store store' : FileStore} {p : Place}

/-- **Paths lead where they led**: what has changed was no directory, so no step went on from
there. -/
theorem SameBut.follow (hs : SameBut p store store') (hp : store.node? p ≠ some .directory)
    {steps : List PathStep} {q r : Place} (h : store.follow q steps = .ok r) :
    store'.follow q steps = .ok r := by
  induction steps generalizing q with
  | nil => exact h
  | cons s steps ih =>
    rw [FileStore.follow] at h
    cases hstep : store.step q s with
    | error fault =>
      rw [hstep] at h
      cases h
    | ok next =>
      rw [hstep] at h
      have hq : q ≠ p := by
        rintro rfl
        exact hp (node?_of_step hstep)
      have hstep' : store'.step q s = .ok next := by
        rw [step, find_congr (hs.others q hq)]
        exact hstep
      rw [FileStore.follow, hstep']
      exact ih h

/-- The steps of a computation that went well. -/
theorem ok_of_bind {ε α β : Type} {x : Except ε α} {f : α → Except ε β} {b : β}
    (h : x >>= f = .ok b) : ∃ a, x = .ok a ∧ f a = .ok b := by
  cases x with
  | error e => cases h
  | ok a => exact ⟨a, rfl, h⟩

/-- The place that is written to, and what is there: no directory. -/
theorem target_ok {text : String} (h : store.target text = .ok p) :
    ∃ path, FilePath.ofText text = .ok path ∧ store.locate path = .ok p ∧
      path.isSlashed = false ∧ p.isTooLong = false ∧ store.node? p ≠ some .directory := by
  obtain ⟨path, hpath, h⟩ := ok_of_bind h
  obtain ⟨q, hplace, h⟩ := ok_of_bind h
  split at h
  · cases h
  · rename_i hslash
    have hslash := Bool.eq_false_iff.2 hslash
    split at h
    · cases h
    · rename_i hfind
      cases h
      obtain ⟨hlong, hnode⟩ := node?_of_find hfind
      exact ⟨path, hpath, hplace, hslash, hlong, by rw [hnode]; nofun⟩
    · rename_i hfind
      cases h
      obtain ⟨hlong, hnode⟩ := node?_of_find_notFound hfind
      exact ⟨path, hpath, hplace, hslash, hlong, by rw [hnode]; nofun⟩
    · cases h

theorem read_ok {text : String} {bytes : Bytes} (h : store.read text = .ok bytes) :
    ∃ p, store.target text = .ok p ∧ store.node? p = some (.file bytes) := by
  obtain ⟨path, hpath, h⟩ := ok_of_bind h
  obtain ⟨q, hplace, h⟩ := ok_of_bind h
  obtain ⟨node, hfind, h⟩ := ok_of_bind h
  cases node with
  | directory => cases h
  | file held =>
    dsimp only at h
    split at h
    · cases h
    · rename_i hslash
      cases h
      refine ⟨q, ?_, (node?_of_find hfind).2⟩
      simp [target, hpath, hplace, hslash, hfind, bind, Except.bind, pure, Except.pure]

/-- **A path finds the file that it found**, with what the file holds now. -/
theorem SameBut.read_of_target (hs : SameBut p store store') (hp : store.node? p ≠ some .directory)
    {text : String} {q : Place} {bytes : Bytes} (h : store.target text = .ok q)
    (hb : store'.node? q = some (.file bytes)) : store'.read text = .ok bytes := by
  obtain ⟨path, hpath, hplace, hslash, hlong, -⟩ := target_ok h
  have hplace' : store'.locate path = .ok q := by
    rw [locate, hs.working]
    exact hs.follow hp hplace
  simp [read, hpath, hplace', hslash, find_of_node? hlong hb, bind, Except.bind, pure, Except.pure]

/-- **Files at other places are read as before.** -/
theorem SameBut.read_other (hs : SameBut p store store') (hp : store.node? p ≠ some .directory)
    {text : String} {bytes : Bytes} (h : store.read text = .ok bytes) :
    store.target text = .ok p ∨ store'.read text = .ok bytes := by
  obtain ⟨q, htarget, hq⟩ := read_ok h
  by_cases hqp : q = p
  · exact Or.inl (hqp ▸ htarget)
  · exact Or.inr (hs.read_of_target hp htarget ((hs.others q hqp).trans hq))

/-! ## Writing -/

/-- **Writing a file.** Either the bytes are in the one file that the path leads to and all others
are as they were, or the path leads to no file and nothing has changed. -/
theorem overwrite_spec (store : FileStore) (text : String) (bytes : Bytes) :
    match (overwrite text bytes).run store with
    | .ok _ saved => ∃ p, store.target text = .ok p ∧ saved.node? p = some (.file bytes) ∧
        SameBut p store saved
    | .error fault left => store.target text = .error fault ∧ left = store := by
  cases ht : store.target text with
  | error fault =>
    have failed : (overwrite text bytes).run store = .error fault store := by
      simp [overwrite, create, ht, EStateM.run, bind, EStateM.bind]
    rw [failed]
    exact ⟨rfl, rfl⟩
  | ok p =>
    obtain ⟨path, -, -, -, -, hp⟩ := target_ok ht
    have inside : ¬ p.holds store.working := by
      intro h
      exact hp (if_pos h)
    -- the file is empty when it is written, so nothing stays behind the bytes
    let emptied := store.put p (.file [])
    have hempty : emptied.node? p = some (.file []) := node?_put_self store _ inside
    have done : (overwrite text bytes).run store = .ok () (emptied.put p (.file bytes)) := by
      simp [overwrite, create, writeFront, ht, EStateM.run, bind, EStateM.bind, hempty, emptied]
    rw [done]
    exact ⟨p, rfl, node?_put_self _ _ inside,
      (sameBut_put store p _).trans (sameBut_put emptied p _)⟩

theorem read_overwritten {store saved : FileStore} {text : String} {bytes : Bytes}
    (h : (overwrite text bytes).run store = .ok () saved) : saved.read text = .ok bytes := by
  have spec := overwrite_spec store text bytes
  rw [h] at spec
  obtain ⟨p, htarget, hplace, others⟩ := spec
  obtain ⟨-, -, -, -, -, hfree⟩ := target_ok htarget
  exact others.read_of_target hfree htarget hplace

end HeapWatch.FileStore
