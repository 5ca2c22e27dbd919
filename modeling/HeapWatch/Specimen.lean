import HeapWatch.Campaign
import HeapWatch.Program
/-!
# A target with a bug: `target` of `fuzz_loop`

The target takes the first byte of its input for a length in units of 65536 bytes and asks for that
much, or for as much as the rest of the input needs if that is more. A campaign on four inputs shows
which of them make it ask for more than before, and which of them for far too much.
-/

namespace HeapWatch.Specimen

/-- Where the target asks for memory. -/
def site : Site := ⟨0x401230⟩

/-- How much the target asks for on an input that starts with `first`. -/
def requested (first : UInt8) (body : Bytes) : UInt64 :=
  max (first.toUInt64 <<< 16) body.length.toUInt64

/-- The calls that the target makes on an input (`target`). On an empty input it makes none. -/
def calls : Bytes → List Call
  | [] => []
  | first :: body => [.allocate (requested first body) site]

/-- The inputs of the campaign. -/
def inputs : List Bytes :=
  [0x00 :: ascii "hello", 0x01 :: ascii "hi", 0x00 :: ascii "world", 0xFF :: ascii "boom"]

/-- The campaign on the four inputs, with the first of them as its baseline. -/
def campaign : (List Round × Campaign Nat) × Campaign.Transcript :=
  Campaign.conduct Heap.system.source Program.started.watch {} (inputs.head?.elim [] calls)
    (inputs.map fun input => ⟨input, calls input⟩)

end HeapWatch.Specimen
