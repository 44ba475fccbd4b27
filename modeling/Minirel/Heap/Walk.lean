import Minirel.Heap.World

/-!
# A walk over a file's chain

A scan walks the data pages of its file along the chain, and the live slots of
each page in slot order, handing out the records its predicate accepts.
`WalkCtx` is what such a walk works from: the world it starts in, the file and
the predicate. `stream` is what the walk has still to pass, `matching` the part
of it the predicate accepts, and `measure` bounds the loop iterations left. A
scan that only reads (`Minirel.Heap.ScanRun`) and one that deletes what it hands
out (`Minirel.Heap.DeleteScan`) walk the same way.
-/
namespace Minirel

/-- Loop iterations a walk over the pages `ps` takes at most: one per live
record and one per page. -/
def scanBound (pg : Int → DataPage) (ps : List Int) : Nat := (ps.map fun q => (pg q).live.length + 1).sum

/-- What `scanNext` returns while the matching records `rem` are still to come. -/
def answer : List (RID × Record) → Except Status RID
  | [] => .error .FILEEOF
  | x :: _ => .ok x.1

/-- What a walk works from: the world it starts in, the file and the predicate. -/
structure WalkCtx where
  w₀ : World
  f : FileId
  keep : Record → Bool

namespace WalkCtx

variable (C : WalkCtx)

/-- The file's data pages at the start. -/
def pg (q : Int) : DataPage := C.w₀.dataPage C.f q

def hdrKey : Key := (some C.f, C.w₀.db.first C.f)

/-- The records from the slots `R` of page `p` on, then those of the pages `qs`. -/
def stream (p : Int) (R : List (Nat × Record)) (qs : List Int) : List (RID × Record) :=
  R.map (fun e => (⟨p, e.1⟩, e.2)) ++ chainRecords C.pg qs

/-- Those the predicate accepts. -/
def matching (p : Int) (R : List (Nat × Record)) (qs : List Int) : List (RID × Record) :=
  (C.stream p R qs).filter fun x => C.keep x.2

/-- Loop iterations the walk may still take: one per record, one per page change. -/
def measure (R : List (Nat × Record)) (qs : List Int) : Nat := R.length + scanBound C.pg qs

variable {C}

theorem matching_cons (p : Int) (e : Nat × Record) (R : List (Nat × Record)) (qs : List Int) :
    C.matching p (e :: R) qs =
      if C.keep e.2 then (⟨p, e.1⟩, e.2) :: C.matching p R qs else C.matching p R qs := by
  unfold matching stream
  by_cases hk : C.keep e.2 <;> simp [List.filter_cons, hk]

theorem matching_next (p q : Int) (qs : List Int) :
    C.matching p [] (q :: qs) = C.matching q (C.pg q).live qs := by
  simp [matching, stream]

theorem measure_cons (e : Nat × Record) (R : List (Nat × Record)) (qs : List Int) :
    C.measure (e :: R) qs = C.measure R qs + 1 := by
  simp only [measure, List.length_cons]; omega

theorem measure_start (p : Int) (qs : List Int) : C.measure (C.pg p).live qs + 1 = scanBound C.pg (p :: qs) := by
  simp only [measure, scanBound, List.map_cons, List.sum_cons]; omega

theorem measure_next (q : Int) (qs : List Int) : C.measure [] (q :: qs) = C.measure (C.pg q).live qs + 1 := by
  simp only [measure, scanBound, List.map_cons, List.sum_cons, List.length_nil]; omega

end WalkCtx

end Minirel
