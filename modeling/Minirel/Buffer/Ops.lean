import Minirel.Buffer.Invariant

/-!
# The operations when every file read and write succeeds

With `ReadWriteOk` and `Inv`, `allocBuf` returns a frame or BUFFEREXCEEDED, and
each operation has a short list of outcomes, each an explicit state. Later
modules (pin counts, page contents, the heap-file layer) cite these lemmas and
never unfold the operations again.
-/
namespace Minirel.BufMgr

variable {P : Type} {s : BufMgr P} {io : FileAnswers}

/-- The state `readPage` leaves after a hit in frame `j`. -/
def pinned (s : BufMgr P) (j : Nat) : BufMgr P :=
  let d := s.bufTable j
  { s with bufTable := Function.update s.bufTable j { d with refbit := true, pinCnt := d.pinCnt + 1 } }

/-- Frame `v` now holds page `(f, p)` with bytes `pg`, mapped and `Set`. -/
def install (s : BufMgr P) (v : Nat) (f : FileId) (p : Int) (pg : P) : BufMgr P :=
  { s with
      bufPool := Function.update s.bufPool v pg
      hashTable := ⟨Function.update s.hashTable.find (some f, p) (some v)⟩
      bufTable := Function.update s.bufTable v (.set f p) }

/-- The state a successful `unPinPage` of frame `j` leaves. -/
def unpinned (s : BufMgr P) (j : Nat) (dirty : Bool) : BufMgr P :=
  let d := s.bufTable j
  let d' := { d with pinCnt := d.pinCnt - 1, dirty := d.dirty || dirty }
  { s with bufTable := Function.update s.bufTable j d' }

@[simp] theorem pinned_bufTable (j : Nat) : (s.pinned j).bufTable = Function.update s.bufTable j
    { s.bufTable j with refbit := true, pinCnt := (s.bufTable j).pinCnt + 1 } := rfl
@[simp] theorem unpinned_bufTable (j : Nat) (d : Bool) : (s.unpinned j d).bufTable =
    Function.update s.bufTable j
      { s.bufTable j with pinCnt := (s.bufTable j).pinCnt - 1, dirty := (s.bufTable j).dirty || d } :=
  rfl
@[simp] theorem pinned_hashTable (j : Nat) : (s.pinned j).hashTable = s.hashTable := rfl
@[simp] theorem pinned_bufPool (j : Nat) : (s.pinned j).bufPool = s.bufPool := rfl
@[simp] theorem pinned_disk (j : Nat) : (s.pinned j).disk = s.disk := rfl
@[simp] theorem unpinned_hashTable (j : Nat) (d : Bool) : (s.unpinned j d).hashTable = s.hashTable := rfl
@[simp] theorem unpinned_bufPool (j : Nat) (d : Bool) : (s.unpinned j d).bufPool = s.bufPool := rfl
@[simp] theorem unpinned_disk (j : Nat) (d : Bool) : (s.unpinned j d).disk = s.disk := rfl

section Install

variable (s) (v : Nat) (f : FileId) (p : Int) (pg : P)

@[simp] theorem install_find :
    (s.install v f p pg).hashTable.find = Function.update s.hashTable.find (some f, p) (some v) := rfl
@[simp] theorem install_bufTable :
    (s.install v f p pg).bufTable = Function.update s.bufTable v (.set f p) := rfl
@[simp] theorem install_bufPool : (s.install v f p pg).bufPool = Function.update s.bufPool v pg := rfl
@[simp] theorem install_disk : (s.install v f p pg).disk = s.disk := rfl
@[simp] theorem install_numBufs : (s.install v f p pg).numBufs = s.numBufs := rfl

end Install

/-- Under `Inv`, a page mapped to frame `j` is held by that valid frame. -/
theorem Inv.find_nat (hi : Inv s) {k : Key} {j : Nat} (h : s.hashTable.find k = some (j : Int)) :
    j < s.numBufs ∧ (s.bufTable j).valid = true ∧ (s.bufTable j).key = k := by
  obtain ⟨j', hj, h1, h2, h3⟩ := hi.find_frame h
  rw [Int.ofNat_inj.1 hj]; exact ⟨h1, h2, h3⟩

theorem allocBuf_find_none (io : FileAnswers) (hi : Inv s) {k : Key} (h : s.hashTable.find k = none) :
    (allocBuf io s).2.hashTable.find k = none := by
  cases h' : (allocBuf io s).2.hashTable.find k
  · rfl
  · rw [allocBuf_find io hi h'] at h; cases h

theorem allocBuf_rw (hi : Inv s) (hw : ∀ k, io.writePage k = .OK) :
    (∃ v, (allocBuf io s).1 = .ok v) ∨ (allocBuf io s).1 = .error .BUFFEREXCEEDED := by
  obtain ⟨t, -, -, ⟨-, hab⟩ | ⟨-, -, ⟨⟨e, he⟩, -⟩ | ⟨s1, -, hab⟩⟩ | hab⟩ := allocBuf_cases io hi
  · exact .inl ⟨_, by rw [hab]⟩
  · unfold victimWrite at he; split at he
    · rw [writeBack, hw] at he; cases he
    · cases he
  · exact .inl ⟨_, by rw [hab]⟩
  · exact .inr (by rw [hab])

theorem readPage_cases (hi : Inv s) (hrw : io.ReadWriteOk) (f : FileId) (p : Int) :
    (∃ j : Nat, s.hashTable.find (some f, p) = some (j : Int) ∧ readPage io s f p = (.ok j, s.pinned j)) ∨
      s.hashTable.find (some f, p) = none ∧
        ((allocBuf io s).1 = .error .BUFFEREXCEEDED ∧
            readPage io s f p = (.error .BUFFEREXCEEDED, (allocBuf io s).2) ∨
          ∃ v : Nat, (allocBuf io s).1 = .ok v ∧ readPage io s f p =
            (.ok v, (allocBuf io s).2.install v f p ((allocBuf io s).2.disk (some f, p)))) := by
  unfold readPage readPageWith
  cases hl : s.hashTable.lookup (some f, p) with
  | ok i =>
    have hf := BufHashTbl.lookup_eq_ok.1 hl
    obtain ⟨j, rfl, -⟩ := hi.find_frame hf
    exact .inl ⟨j, hf, by simp [pinned, setDesc]⟩
  | error e =>
    have hf := (BufHashTbl.lookup_eq_error.1 hl).1
    refine .inr ⟨hf, ?_⟩
    have hf' := allocBuf_find_none io hi hf
    rcases allocBuf_rw hi hrw.write with ⟨v, hv⟩ | hb
    · refine .inr ⟨v, hv, ?_⟩
      rcases hab : allocBuf io s with ⟨r, u⟩
      rw [hab] at hv hf'; cases hv
      simp only at hf'
      simp [readInto, hrw.read, BufHashTbl.insert, hf', install, setDesc]
    · refine .inl ⟨hb, ?_⟩
      rcases hab : allocBuf io s with ⟨r, u⟩
      rw [hab] at hb; cases hb; rfl

theorem unPinPage_cases (hi : Inv s) (f : FileId) (p : Int) (dirty : Bool) :
    s.hashTable.find (some f, p) = none ∧ unPinPage s f p dirty = (.HASHNOTFOUND, s) ∨
      ∃ j : Nat, s.hashTable.find (some f, p) = some (j : Int) ∧
        ((s.bufTable j).pinCnt = 0 ∧ unPinPage s f p dirty = (.PAGENOTPINNED, s) ∨
          0 < (s.bufTable j).pinCnt ∧ unPinPage s f p dirty = (.OK, s.unpinned j dirty)) := by
  unfold unPinPage
  cases hl : s.hashTable.lookup (some f, p) with
  | error e => exact .inl ⟨(BufHashTbl.lookup_eq_error.1 hl).1, rfl⟩
  | ok i =>
    have hf := BufHashTbl.lookup_eq_ok.1 hl
    obtain ⟨j, rfl, -⟩ := hi.find_frame hf
    refine .inr ⟨j, hf, ?_⟩
    simp only [descAt_natCast, setDescAt_natCast]
    split
    · exact .inl ⟨‹_›, rfl⟩
    next h => exact .inr ⟨Nat.pos_of_ne_zero h, by simp [unpinned, setDesc]⟩

theorem allocPage_cases (hi : Inv s) (hw : ∀ k, io.writePage k = .OK) (f : FileId) :
    (io.allocatePage f).1 ≠ .OK ∧ allocPage io s f = (.error (io.allocatePage f).1, s) ∨
      (io.allocatePage f).1 = .OK ∧
        ((allocBuf io s).1 = .error .BUFFEREXCEEDED ∧
            allocPage io s f = (.error .BUFFEREXCEEDED, (allocBuf io s).2) ∨
          ∃ v : Nat, (allocBuf io s).1 = .ok v ∧
            ((allocBuf io s).2.hashTable.find (some f, (io.allocatePage f).2) ≠ none ∧
                allocPage io s f = (.error .HASHTBLERROR, (allocBuf io s).2) ∨
              (allocBuf io s).2.hashTable.find (some f, (io.allocatePage f).2) = none ∧
                allocPage io s f = (.ok ((io.allocatePage f).2, v),
                  (allocBuf io s).2.install v f (io.allocatePage f).2 ((allocBuf io s).2.bufPool v)))) := by
  unfold allocPage allocPageWith
  rcases ha : io.allocatePage f with ⟨st, pageNo⟩
  by_cases hst : st = .OK
  · subst hst
    refine .inr ⟨rfl, ?_⟩
    rcases allocBuf_rw hi hw with ⟨v, hv⟩ | hb
    · rcases hab : allocBuf io s with ⟨r, u⟩
      rw [hab] at hv; cases hv
      refine .inr ⟨v, rfl, ?_⟩
      cases hf : u.hashTable.find (some f, pageNo) with
      | some _ => exact .inl ⟨by simp, by simp [BufHashTbl.insert, hf]⟩
      | none => exact .inr ⟨rfl, by simp [BufHashTbl.insert, hf, install, setDesc]⟩
    · rcases hab : allocBuf io s with ⟨r, u⟩
      rw [hab] at hb; cases hb; exact .inl ⟨rfl, rfl⟩
  · exact .inl ⟨hst, by split <;> simp_all⟩

/-- Frame `j` loses its page: the mapping of its key goes, the descriptor becomes `d`. -/
def discard (s : BufMgr P) (j : Nat) (d : BufDesc) : BufMgr P :=
  { s with
      hashTable := ⟨Function.update s.hashTable.find (s.bufTable j).key none⟩
      bufTable := Function.update s.bufTable j d }

section Discard

variable (s) (j : Nat) (d : BufDesc)

@[simp] theorem discard_find :
    (s.discard j d).hashTable.find = Function.update s.hashTable.find (s.bufTable j).key none := rfl
@[simp] theorem discard_bufTable : (s.discard j d).bufTable = Function.update s.bufTable j d := rfl
@[simp] theorem discard_bufPool : (s.discard j d).bufPool = s.bufPool := rfl
@[simp] theorem discard_disk : (s.discard j d).disk = s.disk := rfl
@[simp] theorem discard_numBufs : (s.discard j d).numBufs = s.numBufs := rfl

end Discard

theorem disposePage_cases (io : FileAnswers) (hi : Inv s) (f : FileId) (p : Int) :
    s.hashTable.find (some f, p) = none ∧ disposePage io s f p = (io.disposePage (some f, p), s) ∨
      ∃ j : Nat, s.hashTable.find (some f, p) = some (j : Int) ∧ j < s.numBufs ∧
        (s.bufTable j).valid = true ∧ (s.bufTable j).key = (some f, p) ∧
        disposePage io s f p = (io.disposePage (some f, p), s.discard j .clear) := by
  unfold disposePage
  cases hl : s.hashTable.lookup (some f, p) with
  | error e =>
    have hf := (BufHashTbl.lookup_eq_error.1 hl).1
    exact .inl ⟨hf, by simp [BufHashTbl.remove, hf]⟩
  | ok i =>
    have hf := BufHashTbl.lookup_eq_ok.1 hl
    obtain ⟨j, rfl, hj, hv, hk⟩ := hi.find_frame hf
    exact .inr ⟨j, hf, hj, hv, hk, by simp [BufHashTbl.remove, hf, discard, hk]⟩

/-- Frame `i`'s bytes written to its disk page when it is dirty. -/
def written (s : BufMgr P) (i : Nat) : BufMgr P :=
  { s with
      disk := if (s.bufTable i).dirty then Function.update s.disk (s.bufTable i).key (s.bufPool i)
        else s.disk }

section Written

variable (s) (i : Nat)

@[simp] theorem written_hashTable : (s.written i).hashTable = s.hashTable := rfl
@[simp] theorem written_bufTable : (s.written i).bufTable = s.bufTable := rfl
@[simp] theorem written_bufPool : (s.written i).bufPool = s.bufPool := rfl
@[simp] theorem written_numBufs : (s.written i).numBufs = s.numBufs := rfl

end Written

theorem Inv.written (hi : Inv s) (i : Nat) : Inv (s.written i) := hi.pages s.bufPool _

theorem written_disk_of_ne {k : Key} {i : Nat} (hk : k ≠ (s.bufTable i).key) :
    (s.written i).disk k = s.disk k := by
  simp only [written]; split <;> simp [Function.update_noteq hk]

/-- The descriptor `flushFile` leaves in a frame it writes out. -/
def flushedDesc (d : BufDesc) : BufDesc :=
  { d with dirty := false, file := none, pageNo := -1, valid := false }

/-- One iteration of `flushFile`'s loop, from a state with `Inv`. -/
theorem flushFrames_cons (hi : Inv s) (hw : ∀ k, io.writePage k = .OK) (f : FileId) {i : Nat}
    (hin : i < s.numBufs) (is : List Nat) :
    flushFrames io f (i :: is) s =
      if (s.bufTable i).valid = true ∧ (s.bufTable i).file = some f then
        if 0 < (s.bufTable i).pinCnt then (.PAGEPINNED, s)
        else flushFrames io f is ((s.written i).discard i (flushedDesc (s.bufTable i)))
      else if (s.bufTable i).valid = false ∧ (s.bufTable i).file = some f then (.BADBUFFER, s)
      else flushFrames io f is s := by
  simp only [flushFrames]
  split
  next h =>
    split
    · rfl
    · have hk : (s.bufTable i).key = (some f, (s.bufTable i).pageNo) := by
        simp [BufDesc.key, h.2]
      have hfi : s.hashTable.find (some f, (s.bufTable i).pageNo) = some (i : Int) :=
        hk ▸ hi.find_self hin h.1
      by_cases hd : (s.bufTable i).dirty = true
      · simp [written, hd, writeBack, hw, dropFrame, discard, BufHashTbl.remove, hfi, hk, flushedDesc]
      · simp [written, hd, dropFrame, discard, BufHashTbl.remove, hfi, hk, flushedDesc]
  · rfl

/-- One frame flushed, from a state with `Inv`: `Inv` again. -/
theorem Inv.flushStep (hi : Inv s) {i : Nat} (hin : i < s.numBufs) (hv : (s.bufTable i).valid = true)
    (hp : (s.bufTable i).pinCnt = 0) :
    Inv ((s.written i).discard i (flushedDesc (s.bufTable i))) :=
  (hi.drop hin hv (d := flushedDesc (s.bufTable i)) rfl ⟨hp, rfl, rfl⟩).pages s.bufPool _

/-- A successful victim write is `written` at the hand. -/
theorem victimWrite_written {t s1 : BufMgr P} (hw : t.victimWrite io = .ok s1) :
    s1 = t.written t.clockHand := by
  unfold victimWrite at hw; split at hw
  next hd => rw [(writeBack_eq_ok.1 hw).2, written, if_pos hd]
  next hd => cases hw; rw [written, if_neg hd]

/-- An eviction writes the hand's frame back and discards it, as `flushFile` does. -/
theorem evicted_eq {t s1 : BufMgr P} (hw : t.victimWrite io = .ok s1) :
    evicted t s1 = (t.written t.clockHand).discard t.clockHand .clear := by
  rw [victimWrite_written hw]; rfl

/-! ## Calls -/

section Run

variable (io s) (f : FileId) (p : Int)

@[simp] theorem run_readPage : (Call.readPage f p).run io s =
    (statusOf (readPage io s f p).1, (readPage io s f p).2) := rfl
@[simp] theorem run_unPinPage (d : Bool) : (Call.unPinPage f p d).run io s = unPinPage s f p d := rfl
@[simp] theorem run_allocPage : (Call.allocPage f).run io s =
    (statusOf (allocPage io s f).1, (allocPage io s f).2) := rfl
@[simp] theorem run_disposePage : (Call.disposePage f p).run io s = disposePage io s f p := rfl
@[simp] theorem run_flushFile : (Call.flushFile f).run io s = flushFile io s f := rfl

end Run

/-- With every write-back succeeding, every call keeps `Inv`. -/
theorem run_inv (hi : Inv s) (hw : ∀ k, io.writePage k = .OK) (c : Call) : Inv (c.run io s).2 := by
  cases c with
  | readPage f p => exact readPage_inv io hi f p (readPage_ne_minus_one hi hw f p)
  | unPinPage f p d => exact unPinPage_inv hi f p d
  | allocPage f => exact allocPage_inv io hi f
  | disposePage f p => exact disposePage_inv io hi f p
  | flushFile f => exact flushFile_inv io hi f

end Minirel.BufMgr
