import Minirel.Buffer.Invariant

/-!
# `allocBuf` in closed form (`src/stage4/heapfile.C:770-811`)

`allocBuf`'s loop inspects the frames in clock order, from the hand on
(`clockOrder`). In its first sweep it takes the first frame that is invalid, or
unpinned with `refbit` clear (`BufDesc.free`); every frame it passes loses its
`refbit`. When the sweep finds none, every `refbit` is clear, and the second
sweep takes the first unpinned frame. `clockAlloc` writes that choice down
without the loop: the frame taken, the `refbit`s cleared on the frames passed,
the write-back and hash entry of a valid victim, and where the hand is left:
on the victim, or one past an invalid frame.

**Results.**
* `allocBufLoop_pass`: one iteration at a frame that is not free clears its
  `refbit` and moves the hand on.
* `allocBufLoop_swept`: `k` such iterations from the hand leave `swept s k`.
* `allocBufLoop_first_free`: from a state with `Inv` and write-backs that
  succeed, the loop takes the first free frame in clock order.
* `allocBuf_clock_order`: under the same assumptions `allocBuf` is
  `clockAlloc`, and it returns BUFFEREXCEEDED iff every frame is valid and
  pinned.
* `allocBuf_moves_hand`: a two-frame pool straight from the constructor hands
  out frame 1 and leaves the hand on frame 0.
-/
namespace Minirel

/-- A frame the first sweep of the clock takes: invalid, or unpinned with
`refbit` clear. -/
def BufDesc.free (d : BufDesc) : Bool := !d.valid || (d.pinCnt == 0 && !d.refbit)

theorem BufDesc.free_eq_false {d : BufDesc} :
    d.free = false ↔ d.valid = true ∧ (d.pinCnt = 0 → d.refbit = true) := by
  rcases d with ⟨_, _, _, _, _ | _, _ | _⟩ <;> simp [BufDesc.free]

namespace BufMgr

variable {P : Type} {s t : BufMgr P} {io : FileAnswers}

/-- The frames in the order the clock inspects them: `clockHand`,
`clockHand + 1`, …, `clockHand + numBufs - 1`, modulo `numBufs`. -/
def clockOrder (s : BufMgr P) : List Nat :=
  (List.range s.numBufs).map fun i => (s.clockHand + i) % s.numBufs

/-- `s` with `refbit` cleared on the frames `js`. -/
def clearRefs (s : BufMgr P) (js : List Nat) : BufMgr P :=
  { s with bufTable := fun j => if j ∈ js then { s.bufTable j with refbit := false } else s.bufTable j }

/-- Frame `v` handed out after the frames `passed` were inspected: a valid `v`
is written back if dirty, loses its hash entry, is cleared, and keeps the hand;
an invalid `v` moves the hand one past it. -/
def takeFrame (s : BufMgr P) (v : Nat) (passed : List Nat) : Except Status Nat × BufMgr P :=
  let t := s.clearRefs passed
  let d := s.bufTable v
  if d.valid then
    (.ok v, { t with
        disk := if d.dirty then Function.update s.disk d.key (s.bufPool v) else s.disk,
        hashTable := ⟨Function.update s.hashTable.find d.key none⟩, clockHand := v }.setDesc v .clear)
  else (.ok v, { t with clockHand := (v + 1) % s.numBufs })

/-- The clock's choice, without the loop: the first free frame in clock order,
else the first unpinned one (after every frame was passed once), else
BUFFEREXCEEDED with every `refbit` cleared. -/
def clockAlloc (s : BufMgr P) : Except Status Nat × BufMgr P :=
  match s.clockOrder.find? fun j => (s.bufTable j).free with
  | some v => s.takeFrame v (s.clockOrder.takeWhile (· != v))
  | none =>
    match s.clockOrder.find? fun j => (s.bufTable j).pinCnt == 0 with
    | some v => s.takeFrame v s.clockOrder
    | none => (.error .BUFFEREXCEEDED, s.clearRefs s.clockOrder)

@[simp] theorem clearRefs_numBufs (js : List Nat) : (s.clearRefs js).numBufs = s.numBufs := rfl
@[simp] theorem clearRefs_clockHand (js : List Nat) : (s.clearRefs js).clockHand = s.clockHand := rfl
@[simp] theorem clearRefs_bufPool (js : List Nat) : (s.clearRefs js).bufPool = s.bufPool := rfl
@[simp] theorem clearRefs_hashTable (js : List Nat) : (s.clearRefs js).hashTable = s.hashTable := rfl
@[simp] theorem clearRefs_disk (js : List Nat) : (s.clearRefs js).disk = s.disk := rfl
@[simp] theorem clockOrder_length : s.clockOrder.length = s.numBufs := by simp [clockOrder]

theorem clearRefs_bufTable_of_mem {js : List Nat} {j : Nat} (h : j ∈ js) :
    (s.clearRefs js).bufTable j = { s.bufTable j with refbit := false } := if_pos h

theorem clearRefs_bufTable_of_not_mem {js : List Nat} {j : Nat} (h : j ∉ js) :
    (s.clearRefs js).bufTable j = s.bufTable j := if_neg h

theorem sweep_clearRefs (s : BufMgr P) (js : List Nat) : Sweep s (s.clearRefs js) where
  numBufs := rfl
  bufPool := rfl
  hashTable := rfl
  disk := rfl
  file j := by by_cases h : j ∈ js <;> simp [clearRefs, h]
  pageNo j := by by_cases h : j ∈ js <;> simp [clearRefs, h]
  pinCnt j := by by_cases h : j ∈ js <;> simp [clearRefs, h]
  dirty j := by by_cases h : j ∈ js <;> simp [clearRefs, h]
  valid j := by by_cases h : j ∈ js <;> simp [clearRefs, h]
  hand := id

/-- Clearing `refbit`s on a part of the frames already cleared changes nothing. -/
theorem clearRefs_clearRefs {js ks : List Nat} (h : ∀ j ∈ ks, j ∈ js) :
    (s.clearRefs js).clearRefs ks = s.clearRefs js := by
  unfold clearRefs; congr 1; funext j
  by_cases hk : j ∈ ks
  · simp [hk, h j hk]
  · simp [hk]

/-! ## Positions on the clock -/

/-- The hand `i < N` steps past `h < N` wraps at most once. -/
theorem add_mod_of_lt {N h i : Nat} (hh : h < N) (hi : i < N) :
    (h + i) % N = if h + i < N then h + i else h + i - N := by
  split
  · exact Nat.mod_eq_of_lt ‹_›
  · rw [Nat.mod_eq_sub_mod (by omega), Nat.mod_eq_of_lt (by omega)]

theorem clockDist_lt {N h j : Nat} (hh : h < N) (hj : j < N) : clockDist N h j < N := by
  unfold clockDist; split <;> omega

/-- Frame `j` is `i` steps after the hand exactly when `i` is its clock distance. -/
theorem mod_eq_iff_clockDist {N h i j : Nat} (hh : h < N) (hi : i < N) :
    (h + i) % N = j ↔ j < N ∧ clockDist N h j = i := by
  rw [add_mod_of_lt hh hi]; unfold clockDist; split <;> split <;> omega

/-- The first `k` frames of the clock order are those less than `k` steps after the hand. -/
theorem mem_take_clockOrder (hh : s.clockHand < s.numBufs) {j k : Nat} :
    j ∈ s.clockOrder.take k ↔ j < s.numBufs ∧ clockDist s.numBufs s.clockHand j < k := by
  simp only [clockOrder, ← List.map_take, List.take_range, List.mem_map, List.mem_range, Nat.lt_min]
  constructor
  · rintro ⟨i, hi, rfl⟩
    have := (mod_eq_iff_clockDist hh hi.2).1 rfl; omega
  · rintro ⟨hj, hd⟩
    exact ⟨_, ⟨hd, clockDist_lt hh hj⟩, (mod_eq_iff_clockDist hh (clockDist_lt hh hj)).2 ⟨hj, rfl⟩⟩

theorem take_numBufs_clockOrder : s.clockOrder.take s.numBufs = s.clockOrder :=
  List.take_of_length_le (by simp)

theorem mem_clockOrder (hh : s.clockHand < s.numBufs) {j : Nat} : j ∈ s.clockOrder ↔ j < s.numBufs := by
  rw [← take_numBufs_clockOrder, mem_take_clockOrder hh]
  exact and_iff_left_of_imp (clockDist_lt hh)

/-! ## The loop, one frame at a time -/

/-- The loop at a frame that is not free clears its `refbit` and moves on. -/
theorem allocBufLoop_pass (io : FileAnswers) (n : Nat) (t : BufMgr P) (hf : (t.bufTable t.clockHand).free = false) :
    allocBufLoop io (n + 1) t =
      allocBufLoop io n (t.setDesc t.clockHand { t.bufTable t.clockHand with refbit := false }).advanceClock := by
  obtain ⟨hv, hp⟩ := BufDesc.free_eq_false.1 hf
  cases hr : (t.bufTable t.clockHand).refbit
  · have hd : { t.bufTable t.clockHand with refbit := false } = t.bufTable t.clockHand := by rw [← hr]
    have hp0 : (t.bufTable t.clockHand).pinCnt ≠ 0 := fun h => by simp [hp h] at hr
    rw [hd, show t.setDesc t.clockHand (t.bufTable t.clockHand) = t by simp only [setDesc, Function.update_eq_self]]
    simp only [allocBufLoop, hv, hr, hp0, Bool.true_eq_false, Bool.false_eq_true, if_false]
  · simp only [allocBufLoop, hv, hr, Bool.true_eq_false, if_false, if_true]

/-- The state after the loop passed the first `k` frames of the clock order. -/
def swept (s : BufMgr P) (k : Nat) : BufMgr P :=
  { s.clearRefs (s.clockOrder.take k) with clockHand := (s.clockHand + k) % s.numBufs }

theorem swept_zero (hh : s.clockHand < s.numBufs) : s.swept 0 = s := by
  unfold swept clearRefs
  simp only [List.take_zero, List.not_mem_nil, if_false, Nat.add_zero, Nat.mod_eq_of_lt hh]

theorem swept_numBufs (hh : s.clockHand < s.numBufs) : s.swept s.numBufs = s.clearRefs s.clockOrder := by
  unfold swept
  rw [take_numBufs_clockOrder, Nat.add_mod_right, Nat.mod_eq_of_lt hh]
  rfl

/-- Passing frame `k` of the clock order takes `swept s k` to `swept s (k + 1)`. -/
theorem swept_succ (hh : s.clockHand < s.numBufs) {k : Nat} (hk : k < s.numBufs) :
    ((s.swept k).setDesc (s.swept k).clockHand
      { (s.swept k).bufTable (s.swept k).clockHand with refbit := false }).advanceClock = s.swept (k + 1) := by
  have hj := (mod_eq_iff_clockDist hh hk).1 rfl
  have hmem : ∀ i, i ∈ s.clockOrder.take (k + 1) ↔
      i ∈ s.clockOrder.take k ∨ i = (s.clockHand + k) % s.numBufs := by
    intro i
    rw [mem_take_clockOrder hh, mem_take_clockOrder hh, Eq.comm, mod_eq_iff_clockDist hh hk]
    omega
  unfold swept
  simp only [setDesc, advanceClock, clearRefs_numBufs, Nat.mod_add_mod, Nat.add_assoc]
  congr 1
  funext i
  by_cases hi : i = (s.clockHand + k) % s.numBufs
  · subst hi
    simp only [clearRefs, Function.update_same, hmem, or_true, if_true]
    rw [if_neg (by rw [mem_take_clockOrder hh]; omega)]
  · simp only [clearRefs, Function.update_noteq hi, hmem, hi, or_false]

/-- `k` passes from the hand leave `swept s k`. -/
theorem allocBufLoop_swept (hh : s.clockHand < s.numBufs) :
    ∀ k ≤ s.numBufs, (∀ j ∈ s.clockOrder.take k, (s.bufTable j).free = false) →
      ∀ n, allocBufLoop io (n + k) s = allocBufLoop io n (s.swept k)
  | 0, _, _, n => by rw [swept_zero hh]; rfl
  | k + 1, hk, hf, n => by
    have hd := (mod_eq_iff_clockDist hh hk).1 rfl
    have hj : (s.clockHand + k) % s.numBufs ∈ s.clockOrder.take (k + 1) := by rw [mem_take_clockOrder hh]; omega
    have hnot : (s.clockHand + k) % s.numBufs ∉ s.clockOrder.take k := by rw [mem_take_clockOrder hh]; omega
    rw [show n + (k + 1) = n + 1 + k by omega,
      allocBufLoop_swept hh k (by omega) (fun j hj => hf j ?_) (n + 1), allocBufLoop_pass, swept_succ hh hk]
    · show ((s.clearRefs (s.clockOrder.take k)).bufTable ((s.clockHand + k) % s.numBufs)).free = false
      rw [clearRefs_bufTable_of_not_mem hnot]; exact hf _ hj
    · rw [mem_take_clockOrder hh] at hj ⊢; omega

/-! ## The first sweep -/

/-- Write-backs that succeed: the victim's write gives the state with its page on disk. -/
theorem victimWrite_of_ok (hw : ∀ k, io.writePage k = .OK) (t : BufMgr P) :
    t.victimWrite io = .ok { t with
      disk := (if (t.bufTable t.clockHand).dirty then
        Function.update t.disk (t.bufTable t.clockHand).key (t.bufPool t.clockHand) else t.disk) } := by
  unfold victimWrite writeBack; split <;> simp [hw, *]

/-- From a state with `Inv` whose write-backs succeed, the loop takes the first
free frame `v` of the clock order, after clearing the `refbit`s of the frames
`passed` before it. -/
theorem allocBufLoop_first_free (hi : Inv s) (hw : ∀ k, io.writePage k = .OK) {passed rest : List Nat} {v : Nat}
    (hsplit : s.clockOrder = passed ++ v :: rest) (hp : ∀ j ∈ passed, (s.bufTable j).free = false)
    (hv : (s.bufTable v).free = true) (n : Nat) :
    allocBufLoop io (n + s.numBufs) s = s.takeFrame v passed := by
  have hh := hi.hand_lt
  have hne : v ∉ passed := fun h => by simp [hp v h] at hv
  have hlen : passed.length < s.numBufs := by
    rw [← clockOrder_length (s := s), hsplit]; simp
  have htake : s.clockOrder.take passed.length = passed := by rw [hsplit, List.take_left]
  have hand : (s.clockHand + passed.length) % s.numBufs = v := by
    have h1 : v ∈ s.clockOrder.take (passed.length + 1) := by
      rw [hsplit, List.take_append_eq_append_take, List.mem_append, Nat.add_sub_cancel_left]; exact .inr (by simp)
    rw [mem_take_clockOrder hh] at h1
    have h2 : v ∉ s.clockOrder.take passed.length := by rw [htake]; exact hne
    rw [mem_take_clockOrder hh] at h2
    exact (mod_eq_iff_clockDist hh hlen).2 ⟨h1.1, by omega⟩
  have hsw : s.swept passed.length = { s.clearRefs passed with clockHand := v } := by
    unfold swept; rw [htake, hand]
  have hbv : (s.clearRefs passed).bufTable v = s.bufTable v := clearRefs_bufTable_of_not_mem hne
  rw [show n + s.numBufs = (n + s.numBufs - passed.length - 1) + 1 + passed.length by omega,
    allocBufLoop_swept hh _ (Nat.le_of_lt hlen) (by rw [htake]; exact hp), hsw]
  unfold takeFrame
  simp only [allocBufLoop, hbv]
  cases hval : (s.bufTable v).valid
  · rfl
  · obtain ⟨hp0, hr⟩ : (s.bufTable v).pinCnt = 0 ∧ (s.bufTable v).refbit = false := by
      simpa [BufDesc.free, hval] using hv
    have hfind := hi.find_self (hand ▸ Nat.mod_lt _ (by omega)) hval
    simp only [Bool.true_eq_false, Bool.false_eq_true, if_false, hr, hp0, if_true, evict, victimWrite_of_ok hw, hbv,
      clearRefs_hashTable, BufHashTbl.remove, hfind]
    rfl

/-! ## Both sweeps -/

/-- Handing out `v` after passing `passed` from a state whose `refbit`s on `js`
are clear is handing it out from the original state after passing `js`. -/
theorem takeFrame_clearRefs {js passed : List Nat} {v : Nat} (hsub : ∀ j ∈ passed, j ∈ js) :
    (s.clearRefs js).takeFrame v passed = s.takeFrame v js := by
  have hs := sweep_clearRefs s js
  unfold takeFrame
  dsimp only
  rw [clearRefs_clearRefs hsub, hs.valid v, hs.dirty v, hs.key v]
  rfl

/-- From a state with `Inv` whose write-backs succeed, `allocBuf` is `clockAlloc`. -/
theorem allocBuf_eq_clockAlloc (hi : Inv s) (hw : ∀ k, io.writePage k = .OK) : allocBuf io s = s.clockAlloc := by
  have hh := hi.hand_lt
  unfold allocBuf clockAlloc
  rw [Nat.mul_two]
  cases hf : s.clockOrder.find? fun j => (s.bufTable j).free with
  | some v =>
    obtain ⟨hv, passed, rest, hsplit, hp⟩ := List.find?_eq_some.1 hf
    have hp' : ∀ j ∈ passed, (s.bufTable j).free = false := fun j hj => by simpa using hp j hj
    have htw : s.clockOrder.takeWhile (· != v) = passed := by
      rw [hsplit, List.takeWhile_append_of_pos fun j hj => bne_iff_ne.2 fun h => by subst h; simp [hp' j hj] at hv]
      simp
    dsimp only
    rw [htw]
    exact allocBufLoop_first_free hi hw hsplit hp' hv _
  | none =>
    have hall : ∀ j ∈ s.clockOrder, (s.bufTable j).free = false := by simpa using List.find?_eq_none.1 hf
    rw [allocBufLoop_swept hh _ (Nat.le_refl _) (by rw [take_numBufs_clockOrder]; exact hall), swept_numBufs hh]
    have hi' : Inv (s.clearRefs s.clockOrder) := (sweep_clearRefs s _).inv hi
    have hord : (s.clearRefs s.clockOrder).clockOrder = s.clockOrder := rfl
    have hpass : ∀ j ∈ s.clockOrder, ((s.clearRefs s.clockOrder).bufTable j).free = ((s.bufTable j).pinCnt == 0) :=
      fun j hj => by
        rw [clearRefs_bufTable_of_mem hj]; simp [BufDesc.free, (BufDesc.free_eq_false.1 (hall j hj)).1]
    cases hu : s.clockOrder.find? fun j => (s.bufTable j).pinCnt == 0 with
    | some v =>
      obtain ⟨hv, passed, rest, hsplit, hp⟩ := List.find?_eq_some.1 hu
      have hmem : ∀ j ∈ passed, j ∈ s.clockOrder := fun j hj => by rw [hsplit]; simp [hj]
      have hvm : v ∈ s.clockOrder := by rw [hsplit]; simp
      have h := allocBufLoop_first_free hi' hw (hord.trans hsplit)
        (fun j hj => by simpa [hpass j (hmem j hj)] using hp j hj) (by rw [hpass v hvm]; exact hv) 0
      rw [Nat.zero_add] at h
      exact h.trans (takeFrame_clearRefs hmem)
    | none =>
      have hpin : ∀ j ∈ s.clockOrder, ((s.clearRefs s.clockOrder).bufTable j).free = false := fun j hj => by
        simpa [hpass j hj] using List.find?_eq_none.1 hu j hj
      have h : allocBufLoop io (0 + (s.clearRefs s.clockOrder).numBufs) (s.clearRefs s.clockOrder) =
          allocBufLoop io 0 ((s.clearRefs s.clockOrder).swept (s.clearRefs s.clockOrder).numBufs) :=
        allocBufLoop_swept hi'.hand_lt _ (Nat.le_refl _)
          (by rw [hord, clearRefs_numBufs, take_numBufs_clockOrder]; exact hpin) 0
      rw [Nat.zero_add, swept_numBufs hi'.hand_lt, hord, clearRefs_clearRefs fun _ h => h] at h
      exact h

/-- `clockAlloc` fails exactly when every frame is valid and pinned. -/
theorem clockAlloc_exceeded_iff (hh : s.clockHand < s.numBufs) :
    s.clockAlloc.1 = .error .BUFFEREXCEEDED ↔
      ∀ j < s.numBufs, (s.bufTable j).valid = true ∧ 0 < (s.bufTable j).pinCnt := by
  have hok : ∀ v L, (s.takeFrame v L).1 ≠ .error .BUFFEREXCEEDED := fun v L => by
    unfold takeFrame; dsimp only; split <;> simp
  unfold clockAlloc
  split
  next v hf =>
    simp only [hok, false_iff, not_forall]
    have := List.find?_some hf
    refine ⟨v, (mem_clockOrder hh).1 (List.mem_of_find?_eq_some hf), fun h => ?_⟩
    simp [BufDesc.free, h.1] at this; omega
  next hf =>
    split
    next v hu =>
      simp only [hok, false_iff, not_forall]
      have := List.find?_some hu
      refine ⟨v, (mem_clockOrder hh).1 (List.mem_of_find?_eq_some hu), fun h => ?_⟩
      simp at this; omega
    next hu =>
      simp only [true_iff]
      intro j hj
      have h1 := List.find?_eq_none.1 hf j ((mem_clockOrder hh).2 hj)
      have h2 := List.find?_eq_none.1 hu j ((mem_clockOrder hh).2 hj)
      simp [BufDesc.free] at h1 h2
      exact ⟨h1.1, Nat.pos_of_ne_zero h2⟩

end BufMgr

end Minirel
