import Minirel.Buffer.BufMgr

/-!
# What one `allocBuf` call can do

`allocBuf`'s loop inspects the frame under the hand: an invalid frame is taken
(and the hand advanced), a referenced frame loses its `refbit` (hand advanced),
an unreferenced unpinned frame is evicted (hand *not* advanced), a pinned one
is passed over. Here that is said once:

* `Sweep s t`: `t` is `s` with some `refbit`s cleared and the hand moved;
* `allocBufLoop_cases`: the loop sweeps to some `t` and then takes the invalid
  frame under `t`'s hand, evicts it, or runs out of iterations;
* `evict_cases`: the eviction fails on the write-back (UNIXERR), fails to find
  the victim's hash entry (HASHTBLERROR), or writes back a dirty victim, drops
  its entry and `Clear`s it.

Every invariant of the pool is derived from these two lemmas.
-/
namespace Minirel.BufMgr

variable {P : Type} {s t u : BufMgr P}

/-- `t` is `s` after passing frames: only `refbit`s and the hand change. -/
structure Sweep (s t : BufMgr P) : Prop where
  numBufs : t.numBufs = s.numBufs
  bufPool : t.bufPool = s.bufPool
  hashTable : t.hashTable = s.hashTable
  disk : t.disk = s.disk
  file : ∀ j, (t.bufTable j).file = (s.bufTable j).file
  pageNo : ∀ j, (t.bufTable j).pageNo = (s.bufTable j).pageNo
  pinCnt : ∀ j, (t.bufTable j).pinCnt = (s.bufTable j).pinCnt
  dirty : ∀ j, (t.bufTable j).dirty = (s.bufTable j).dirty
  valid : ∀ j, (t.bufTable j).valid = (s.bufTable j).valid
  hand : s.clockHand < s.numBufs → t.clockHand < s.numBufs

theorem Sweep.refl (s : BufMgr P) : Sweep s s :=
  ⟨rfl, rfl, rfl, rfl, fun _ => rfl, fun _ => rfl, fun _ => rfl, fun _ => rfl, fun _ => rfl, id⟩

theorem Sweep.trans (h1 : Sweep s t) (h2 : Sweep t u) : Sweep s u where
  numBufs := h2.numBufs.trans h1.numBufs
  bufPool := h2.bufPool.trans h1.bufPool
  hashTable := h2.hashTable.trans h1.hashTable
  disk := h2.disk.trans h1.disk
  file j := (h2.file j).trans (h1.file j)
  pageNo j := (h2.pageNo j).trans (h1.pageNo j)
  pinCnt j := (h2.pinCnt j).trans (h1.pinCnt j)
  dirty j := (h2.dirty j).trans (h1.dirty j)
  valid j := (h2.valid j).trans (h1.valid j)
  hand h := h1.numBufs ▸ h2.hand (h1.numBufs ▸ h1.hand h)

theorem Sweep.key (h : Sweep s t) (j : Nat) : (t.bufTable j).key = (s.bufTable j).key := by
  simp [BufDesc.key, h.file j, h.pageNo j]

theorem advanceClock_lt (s : BufMgr P) (h : s.clockHand < s.numBufs) :
    s.advanceClock.clockHand < s.numBufs :=
  Nat.mod_lt _ (by omega)

theorem sweep_advance (s : BufMgr P) : Sweep s s.advanceClock where
  numBufs := rfl
  bufPool := rfl
  hashTable := rfl
  disk := rfl
  file _ := rfl
  pageNo _ := rfl
  pinCnt _ := rfl
  dirty _ := rfl
  valid _ := rfl
  hand := advanceClock_lt s

theorem sweep_clearRef (s : BufMgr P) (i : Nat) :
    Sweep s (s.setDesc i { s.bufTable i with refbit := false }).advanceClock where
  numBufs := rfl
  bufPool := rfl
  hashTable := rfl
  disk := rfl
  file j := by by_cases hj : j = i <;> simp [hj]
  pageNo j := by by_cases hj : j = i <;> simp [hj]
  pinCnt j := by by_cases hj : j = i <;> simp [hj]
  dirty j := by by_cases hj : j = i <;> simp [hj]
  valid j := by by_cases hj : j = i <;> simp [hj]
  hand := advanceClock_lt _

/-- The loop sweeps, then ends in one of its three exits. -/
theorem allocBufLoop_cases (io : FileAnswers) : ∀ (n : Nat) (s : BufMgr P), ∃ t, Sweep s t ∧
    (((t.bufTable t.clockHand).valid = false ∧
        allocBufLoop io n s = (.ok t.clockHand, t.advanceClock)) ∨
      ((t.bufTable t.clockHand).valid = true ∧ (t.bufTable t.clockHand).refbit = false ∧
        (t.bufTable t.clockHand).pinCnt = 0 ∧ allocBufLoop io n s = t.evict io) ∨
      allocBufLoop io n s = (.error .BUFFEREXCEEDED, t))
  | 0, s => ⟨s, .refl s, .inr (.inr rfl)⟩
  | n + 1, s => by
    simp only [allocBufLoop]
    split
    next hv => exact ⟨s, .refl s, .inl ⟨hv, rfl⟩⟩
    next hv =>
      split
      next =>
        obtain ⟨t, ht, h⟩ := allocBufLoop_cases io n _
        exact ⟨t, (sweep_clearRef s _).trans ht, h⟩
      next hr =>
        split
        next hp => exact ⟨s, .refl s, .inr (.inl ⟨by simpa using hv, by simpa using hr, hp, rfl⟩)⟩
        next =>
          obtain ⟨t, ht, h⟩ := allocBufLoop_cases io n _
          exact ⟨t, (sweep_advance s).trans ht, h⟩

theorem victimWrite_hashTable {io : FileAnswers} {s s1 : BufMgr P} (h : s.victimWrite io = .ok s1) :
    s1.hashTable = s.hashTable := by
  unfold victimWrite at h; split at h
  · rw [(writeBack_eq_ok.1 h).2]
  · cases h; rfl

theorem victimWrite_ok {io : FileAnswers} {s s1 : BufMgr P} (h : s.victimWrite io = .ok s1) :
    s1 = s ∨ ((s.bufTable s.clockHand).dirty = true ∧
      io.writePage (s.bufTable s.clockHand).key = .OK ∧
      s1 = { s with disk := Function.update s.disk (s.bufTable s.clockHand).key (s.bufPool s.clockHand) })
    := by
  unfold victimWrite at h; split at h
  · exact .inr ⟨‹_›, (writeBack_eq_ok.1 h).1, (writeBack_eq_ok.1 h).2⟩
  · cases h; exact .inl rfl

theorem victimWrite_eq {io : FileAnswers} {s s1 : BufMgr P} (h : s.victimWrite io = .ok s1) :
    s1 = { s with disk := s1.disk } := by
  rcases victimWrite_ok h with rfl | ⟨-, -, rfl⟩ <;> rfl

/-- The state an eviction leaves once the write-back gave `s1`. -/
def evicted (s s1 : BufMgr P) : BufMgr P :=
  { s1 with hashTable := ⟨Function.update s.hashTable.find (s.bufTable s.clockHand).key none⟩ }.setDesc
    s.clockHand .clear

theorem evict_cases (io : FileAnswers) (s : BufMgr P) :
    ((∃ e, s.victimWrite io = .error e) ∧ s.evict io = (.error .UNIXERR, s)) ∨
      ∃ s1, s.victimWrite io = .ok s1 ∧
        ((s.hashTable.find (s.bufTable s.clockHand).key = none ∧
            s.evict io = (.error .HASHTBLERROR, s1)) ∨
          ((s.hashTable.find (s.bufTable s.clockHand).key).isSome ∧
            s.evict io = (.ok s.clockHand, evicted s s1))) := by
  unfold evict
  cases hw : s.victimWrite io with
  | error e => exact .inl ⟨⟨e, rfl⟩, rfl⟩
  | ok s1 =>
    refine .inr ⟨s1, rfl, ?_⟩
    simp only [victimWrite_hashTable hw]
    cases hf : s.hashTable.find (s.bufTable s.clockHand).key with
    | none => exact .inl ⟨rfl, by simp [BufHashTbl.remove, hf]⟩
    | some _ => exact .inr ⟨rfl, by simp [BufHashTbl.remove, hf, evicted]⟩

/-! ## The loop finds a frame while one is unpinned -/

/-- How far the hand at `h` has to move forward to reach frame `u`, on a clock of `N` frames. -/
def clockDist (N h u : Nat) : Nat := if h ≤ u then u - h else u + N - h

/-- Iterations the loop may still need to take frame `u`: reach it, and pass it
once more if its `refbit` is set. -/
def allocMeasure (s : BufMgr P) (u : Nat) : Nat :=
  clockDist s.numBufs s.clockHand u + if (s.bufTable u).valid ∧ (s.bufTable u).refbit then s.numBufs else 0

theorem advanceClock_hand (h : s.clockHand < s.numBufs) :
    s.advanceClock.clockHand = if s.clockHand + 1 < s.numBufs then s.clockHand + 1 else 0 := by
  simp only [advanceClock_clockHand]
  split
  · exact Nat.mod_eq_of_lt ‹_›
  · rw [show s.clockHand + 1 = s.numBufs by omega, Nat.mod_self]

theorem evict_ne_exceeded (io : FileAnswers) (s : BufMgr P) : (s.evict io).1 ≠ .error .BUFFEREXCEEDED := by
  rcases evict_cases io s with ⟨-, h⟩ | ⟨s1, -, ⟨-, h⟩ | ⟨-, h⟩⟩ <;> rw [h] <;> simp

theorem clockDist_advance {N h u : Nat} (hh : h < N) (hu : u < N) (hne : u ≠ h) :
    clockDist N (if h + 1 < N then h + 1 else 0) u + 1 = clockDist N h u := by
  unfold clockDist
  by_cases h1 : h + 1 < N
  · rw [if_pos h1]
    by_cases h2 : h ≤ u
    · rw [if_pos h2, if_pos (by omega)]; omega
    · rw [if_neg h2, if_neg (by omega)]; omega
  · rw [if_neg h1, if_pos (Nat.zero_le u), if_neg (by omega)]; omega

theorem clockDist_advance_self {N h : Nat} (hh : h < N) :
    clockDist N (if h + 1 < N then h + 1 else 0) h + 1 = N := by
  unfold clockDist
  by_cases h1 : h + 1 < N
  · rw [if_pos h1, if_neg (by omega)]; omega
  · rw [if_neg h1, if_pos (Nat.zero_le h)]; omega

/-- Passing a frame other than `u` brings the hand one step closer to `u`. -/
theorem allocMeasure_pass (hh : s.clockHand < s.numBufs) {u : Nat} (hu : u < s.numBufs)
    (hne : u ≠ s.clockHand) (hN : t.numBufs = s.numBufs) (hH : t.clockHand = s.advanceClock.clockHand)
    (hT : t.bufTable u = s.bufTable u) : allocMeasure t u + 1 = allocMeasure s u := by
  have := clockDist_advance hh hu hne
  unfold allocMeasure
  rw [hN, hH, advanceClock_hand hh, hT]; omega

/-- Clearing the `refbit` of the frame under the hand costs it the extra lap. -/
theorem allocMeasure_clear (hh : s.clockHand < s.numBufs) (hv : (s.bufTable s.clockHand).valid = true)
    (hr : (s.bufTable s.clockHand).refbit = true) :
    allocMeasure (s.setDesc s.clockHand { s.bufTable s.clockHand with refbit := false }).advanceClock
      s.clockHand < allocMeasure s s.clockHand := by
  have := clockDist_advance_self hh
  have h0 : clockDist s.numBufs s.clockHand s.clockHand = 0 := by simp [clockDist]
  unfold allocMeasure
  rw [advanceClock_hand (s := s.setDesc _ _) hh]
  simp only [advanceClock_numBufs, setDesc_numBufs, advanceClock_bufTable, setDesc_bufTable,
    Function.update_same, setDesc_clockHand, h0, hv, hr, and_self, if_true, Bool.false_eq_true,
    and_false, if_false]
  omega

/-- An unpinned frame `u` is taken, or another frame before it, within
`allocMeasure s u + 1` iterations. -/
theorem allocBufLoop_ne_exceeded (io : FileAnswers) {u : Nat} :
    ∀ (n : Nat) (s : BufMgr P), s.clockHand < s.numBufs → u < s.numBufs → (s.bufTable u).pinCnt = 0 →
      allocMeasure s u < n → (allocBufLoop io n s).1 ≠ .error .BUFFEREXCEEDED
  | 0, _, _, _, _, h => absurd h (Nat.not_lt_zero _)
  | n + 1, s, hh, hu, hp, hm => by
    simp only [allocBufLoop]
    split
    · simp
    next hv =>
      split
      next hr =>
        refine allocBufLoop_ne_exceeded io n _ (advanceClock_lt _ hh) hu ?_ ?_
        · by_cases hus : u = s.clockHand
          · subst hus; simpa using hp
          · simpa [Function.update_noteq hus] using hp
        · by_cases hus : u = s.clockHand
          · subst hus
            exact Nat.lt_of_lt_of_le (allocMeasure_clear hh (by simpa using hv) hr) (Nat.le_of_lt_succ hm)
          · have h := allocMeasure_pass
              (t := (s.setDesc s.clockHand { s.bufTable s.clockHand with refbit := false }).advanceClock)
              hh hu hus rfl rfl (by simp [Function.update_noteq hus])
            rw [← h] at hm; exact Nat.lt_of_succ_lt_succ hm
      next hr =>
        split
        · exact evict_ne_exceeded io s
        next hp' =>
          have hus : u ≠ s.clockHand := by rintro rfl; exact hp' hp
          refine allocBufLoop_ne_exceeded io n _ (advanceClock_lt _ hh) hu hp ?_
          rw [← allocMeasure_pass (t := s.advanceClock) hh hu hus rfl rfl rfl] at hm
          exact Nat.lt_of_succ_lt_succ hm

end Minirel.BufMgr
