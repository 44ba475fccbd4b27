import Minirel.Buffer.Invariant

/-!
# The code's clock against the spec's clock

Spec §4.2: "Walk the clock circularly up to `2 × numBufs` steps. At each step,
advance the hand after inspecting". `specAllocBufLoop` follows those words: the
hand also moves past a frame it evicts. `allocBufLoop` (heapfile.C:789-806)
returns from the eviction branch without `advanceClock()`, while its
invalid-frame branch advances. The next search then starts at the victim's
frame, which the caller has just `Set` with its `refbit`.

`clock_evicts_other_page`: in a two-frame pool with every I/O succeeding, the
history P1, P2, P3 (evicting P1), P2 again, then P4 makes the code evict P3
while the spec's clock evicts P2.
-/
namespace Minirel.BufMgr

variable {P : Type}

/-- The spec's clock with `n` steps left: every inspected frame is passed,
the victim's too. Follows the spec's words, to compare with `allocBufLoop`. -/
def specAllocBufLoop (io : FileAnswers) : Nat → BufMgr P → Except Status Nat × BufMgr P
  | 0, s => (.error .BUFFEREXCEEDED, s)
  | n + 1, s =>
    let d := s.bufTable s.clockHand
    if d.valid = false then (.ok s.clockHand, s.advanceClock)
    else if d.refbit then
      specAllocBufLoop io n (s.setDesc s.clockHand { d with refbit := false }).advanceClock
    else if 0 < d.pinCnt then specAllocBufLoop io n s.advanceClock
    else ((s.evict io).1, (s.evict io).2.advanceClock)

def specAllocBuf : Alloc P := fun io s => specAllocBufLoop io (s.numBufs * 2) s

/-- The state after the calls `cs`, each answered by `io`, with allocator `alloc`. -/
def runCalls (alloc : Alloc P) (io : FileAnswers) : List Call → BufMgr P → BufMgr P
  | [], s => s
  | c :: cs, s => runCalls alloc io cs (c.runWith alloc io s).2

/-- Pages 1, 2, 3 of file 0 read and released (3 replaces 1), then page 2 again. -/
def clockHistory : List Call :=
  [.readPage 0 1, .unPinPage 0 1 false, .readPage 0 2, .unPinPage 0 2 false,
    .readPage 0 3, .unPinPage 0 3 false, .readPage 0 2, .unPinPage 0 2 false, .readPage 0 4]

/-- After `clockHistory` in a two-frame pool, the code has evicted page 3 for
page 4 and the spec's clock page 2. -/
theorem clock_evicts_other_page :
    let s : BufMgr Nat := runCalls allocBuf ioOk clockHistory (init 2 fun _ => 0)
    let t : BufMgr Nat := runCalls specAllocBuf ioOk clockHistory (init 2 fun _ => 0)
    s.hashTable.find (some 0, 3) = none ∧ s.hashTable.find (some 0, 2) = some 0 ∧
      t.hashTable.find (some 0, 2) = none ∧ t.hashTable.find (some 0, 3) = some 1 := by
  decide

end Minirel.BufMgr
