import HeapWatch.Proofs.SavedProfiles
/-!
# A torn file is no profile

Saving empties the file and then writes it from the front, so when it is cut off the file holds a
beginning of the profile's text. No such beginning is taken for a profile, not even for a smaller
one: its reader finds that the text ends too early. Nor is a profile taken from a file in which
anything but blanks comes after it.
-/

namespace HeapWatch.Profile

open Json

/-- A saving that is cut off after so many bytes. -/
def savingUpTo (p : Profile) (path : String) (count : Nat) : FileStore.Action Unit := do
  let place ← FileStore.create path
  FileStore.writeFront place (p.json.take count)

theorem lt_of_mem_json (p : Profile) : ∀ b ∈ p.json, b < 0x80 :=
  (spaced_compact p.tokens).lt_of_isAscii p.isAscii_tokens

/-! ## Less than a profile -/

/-- **The beginning of a profile ends too early.** -/
theorem load_of_prefix (p : Profile) {store : FileStore} {path : String} {held : Bytes}
    (h : store.read path = .ok held) (hp : held <+: p.json) (hne : held ≠ p.json) :
    ∃ refusal, load store path = .error (.text refusal) ∧ refusal.cause.kind = .ended := by
  have valid : Text.Utf8.isValid held = true :=
    Text.Utf8.isValid_of_lt fun b hb => p.lt_of_mem_json b (hp.subset hb)
  have torn : Torn p.tokens held := torn_of_prefix hp hne
  obtain ⟨refusal, hdecode, hkind⟩ := Reader.decode_of_stops p.stops_tokens torn
  refine ⟨refusal, ?_, hkind⟩
  rw [load_of_isValid valid h, ofBytes, hdecode]

/-! ## More than a profile -/

theorem decode_json_append (p : Profile) (rest : Bytes) :
    Profile.reader.decode (p.json ++ rest) =
      match skipBlanks rest with
      | [] => .ok p
      | b :: s =>
        .error (.ofFault (p.json ++ rest) (.within .trailingCharacters (b :: s))) := by
  rewrite [Reader.decode, json, p.read_tokens (begins_compact p.tokens rest)]
  rfl

/-- **What comes after a profile** is blank or refused. -/
theorem load_append (p : Profile) {store : FileStore} {path : String} {rest : Bytes}
    (hv : Text.Utf8.isValid rest = true) (h : store.read path = .ok (p.json ++ rest)) :
    ((∀ b ∈ rest, Byte.isBlank b) → load store path = .ok (ofReadings p.toList)) ∧
    ((∃ b ∈ rest, ¬ Byte.isBlank b) → ∃ refusal, load store path = .error (.text refusal) ∧
      refusal.cause = .trailingCharacters ∧ refusal.cause.kind = .malformed) := by
  have valid : Text.Utf8.isValid (p.json ++ rest) = true := by
    rw [Text.Utf8.isValid_append_of_lt p.lt_of_mem_json, hv]
  rw [load_of_isValid valid h, ofBytes, decode_json_append]
  constructor
  · intro blank
    rw [skipBlanks_eq_nil blank]
  · rintro ⟨b, hb, hn⟩
    cases hs : skipBlanks rest with
    | nil => exact absurd (isBlank_of_skipBlanks hs b hb) hn
    | cons c s => exact ⟨_, rfl, rfl, rfl⟩

/-! ## Both -/

/-- **A torn file is never taken for a profile.** Of a file that holds a beginning of a profile's
text and not the whole, it is said that it ends too early; so a saving that is cut off leaves no
profile behind, whatever the file held before. Of a file that holds more than the whole, the same
profile is loaded if only blanks come after it, and otherwise what comes after it is refused. -/
theorem load_torn (p : Profile) (store : FileStore) (path : String) :
    (∀ held, store.read path = .ok held → held <+: p.json → held ≠ p.json →
      ∃ refusal, load store path = .error (.text refusal) ∧ refusal.cause.kind = .ended) ∧
    (∀ count torn, count < p.json.length → (p.savingUpTo path count).run store = .ok () torn →
      torn.read path = .ok (p.json.take count) ∧
      ∃ refusal, load torn path = .error (.text refusal) ∧ refusal.cause.kind = .ended) ∧
    ∀ rest, Text.Utf8.isValid rest = true → store.read path = .ok (p.json ++ rest) →
      ((∀ b ∈ rest, Byte.isBlank b) → load store path = .ok (ofReadings p.toList)) ∧
      ((∃ b ∈ rest, ¬ Byte.isBlank b) → ∃ refusal, load store path = .error (.text refusal) ∧
        refusal.cause = .trailingCharacters ∧ refusal.cause.kind = .malformed) := by
  refine ⟨?_, ?_, ?_⟩
  · intro held h hp hne
    exact p.load_of_prefix h hp hne
  · intro count torn hcount hrun
    have left : torn.read path = .ok (p.json.take count) := FileStore.read_overwritten hrun
    have shorter : p.json.take count ≠ p.json := by
      intro same
      have := congrArg List.length same
      rw [List.length_take] at this
      omega
    exact ⟨left, p.load_of_prefix left (List.take_prefix count p.json) shorter⟩
  · intro rest hv h
    exact p.load_append hv h

/-- A file that ends within a number, in digits that are a number; the file of a longer text, over
which the saving is cut off after three bytes; and two files with a line feed after the profile,
one of which goes on with another number. -/
theorem load_torn_number :
    let p : Profile := ⟨#[⟨7, 23⟩]⟩
    let holding (bytes : Bytes) : FileStore := .ofFiles [("run", bytes)]
    let torn := ascii "\x7b\"slots\":[\x7b\"index\":7,\"size\":2"
    p.json = torn ++ ascii "3\x7d]\x7d" ∧
    (∃ refusal, load (holding torn) "run" = .error (.text refusal) ∧
      refusal.cause.kind = .ended) ∧
    (∃ left, (p.savingUpTo "run" 3).run (holding (List.replicate 200 0xFF)) = .ok () left ∧
      ∃ refusal, load left "run" = .error (.text refusal) ∧ refusal.cause.kind = .ended) ∧
    load (holding (p.json ++ [0x0A])) "run" = .ok p ∧
    ∃ refusal, load (holding (p.json ++ [0x0A, 0x35])) "run" = .error (.text refusal) ∧
      refusal.cause = .trailingCharacters := by
  intro p holding torn
  have whole : p.json = torn ++ ascii "3\x7d]\x7d" := by decide +kernel
  have read (bytes : Bytes) : (holding bytes).read "run" = .ok bytes := by rfl
  refine ⟨whole, ?_, ?_, ?_, ?_⟩
  · exact (load_torn p _ "run").1 torn (read torn) ⟨_, whole.symm⟩ (by rw [whole]; decide)
  · cases hrun : (p.savingUpTo "run" 3).run (holding (List.replicate 200 0xFF)) with
    | error fault left => cases hrun
    | ok _ left =>
      have cut := (load_torn p _ "run").2.1 3 left (by rw [whole]; decide) hrun
      exact ⟨left, rfl, cut.2⟩
  · have blank : ∀ b ∈ ([0x0A] : Bytes), Byte.isBlank b := by simp [Byte.isBlank]
    have canonical : ofReadings p.toList = p := (ofReadings_eq_self_iff p).2 (by decide)
    have loaded := ((load_torn p _ "run").2.2 [0x0A] (by decide +kernel) (read _)).1 blank
    rwa [canonical] at loaded
  · obtain ⟨refusal, hload, hcause, -⟩ :=
      ((load_torn p _ "run").2.2 [0x0A, 0x35] (by decide +kernel) (read _)).2 (by decide)
    exact ⟨refusal, hload, hcause⟩

end HeapWatch.Profile
