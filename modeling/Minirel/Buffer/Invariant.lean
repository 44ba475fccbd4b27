import Minirel.Buffer.Clock

/-!
# The pool's representation invariant

`Inv` is spec invariant I1 with the frame range made explicit, plus the reset
state of invalid descriptors and the hand's range:

* the hash table maps `(f, p)` to `i` iff `0 ≤ i < numBufs` and frame `i` is
  valid and holds `(f, p)`;
* an invalid frame has `pinCnt = 0`, is clean and has a NULL file;
* `clockHand < numBufs`.

**Results.**
* `allocBuf_cases`: from a state with `Inv`, `allocBuf` sweeps and then takes an
  invalid frame, evicts an unpinned one, fails on its write-back (UNIXERR) or
  finds nothing (BUFFEREXCEEDED); HASHTBLERROR cannot happen.
* one lemma per operation: `unPinPage`, `allocPage`, `disposePage`, `flushFile`
  and `~BufMgr` keep `Inv` whatever the DB layer answers; `readPage` keeps it
  unless it returns the frame `-1`.
* `readPage_maps_minus_one`: from the constructor, a dirty victim whose write-back
  fails makes `readPage` return OK with frame `-1` and map the page to `-1`.
-/
namespace Minirel.BufMgr

variable {P : Type} {s t : BufMgr P}

structure Inv (s : BufMgr P) : Prop where
  hand_lt : s.clockHand < s.numBufs
  hash_iff : ∀ k (i : Int), s.hashTable.find k = some i ↔
    ∃ j : Nat, i = j ∧ j < s.numBufs ∧ (s.bufTable j).valid = true ∧ (s.bufTable j).key = k
  invalid_clear : ∀ j, j < s.numBufs → (s.bufTable j).valid = false →
    (s.bufTable j).pinCnt = 0 ∧ (s.bufTable j).dirty = false ∧ (s.bufTable j).file = none

theorem Inv.find_self (hi : Inv s) {j : Nat} (hj : j < s.numBufs)
    (hv : (s.bufTable j).valid = true) : s.hashTable.find (s.bufTable j).key = some (j : Int) :=
  (hi.hash_iff _ _).2 ⟨j, rfl, hj, hv, rfl⟩

theorem Inv.find_frame (hi : Inv s) {k : Key} {i : Int} (h : s.hashTable.find k = some i) :
    ∃ j : Nat, i = j ∧ j < s.numBufs ∧ (s.bufTable j).valid = true ∧ (s.bufTable j).key = k :=
  (hi.hash_iff _ _).1 h

/-- Two valid frames never hold the same page. -/
theorem Inv.frame_unique (hi : Inv s) {j j' : Nat} (hj : j < s.numBufs) (hj' : j' < s.numBufs)
    (hv : (s.bufTable j).valid = true) (hv' : (s.bufTable j').valid = true)
    (hk : (s.bufTable j).key = (s.bufTable j').key) : j = j' := by
  have h := hi.find_self hj hv
  rw [hk, hi.find_self hj' hv'] at h
  exact_mod_cast (Option.some.inj h).symm

theorem Sweep.inv (h : Sweep s t) (hi : Inv s) : Inv t where
  hand_lt := h.numBufs ▸ h.hand hi.hand_lt
  hash_iff k i := by rw [h.hashTable, hi.hash_iff, h.numBufs]; simp only [h.valid, h.key]
  invalid_clear j hj hv := by
    rw [h.numBufs] at hj; rw [h.valid] at hv; rw [h.pinCnt, h.dirty, h.file]
    exact hi.invalid_clear j hj hv

/-- `Inv` does not look at page bytes or the disk. -/
theorem Inv.pages (hi : Inv s) (pool : Nat → P) (disk : Key → P) :
    Inv { s with bufPool := pool, disk := disk } :=
  ⟨hi.hand_lt, hi.hash_iff, hi.invalid_clear⟩

/-- Changing the counters and flags of a valid frame keeps `Inv`. -/
theorem Inv.setValid (hi : Inv s) {j : Nat} (hv : (s.bufTable j).valid = true) {d : BufDesc}
    (hdv : d.valid = true) (hdk : d.key = (s.bufTable j).key) :
    Inv { s with bufTable := Function.update s.bufTable j d } where
  hand_lt := hi.hand_lt
  hash_iff k i := by
    rw [hi.hash_iff]
    refine exists_congr fun j' => ?_
    by_cases h : j' = j
    · subst h; simp [hv, hdv, hdk]
    · simp [Function.update_noteq h]
  invalid_clear j' hj' hv' := by
    by_cases h : j' = j
    · subst h; simp [hdv] at hv'
    · simp only [Function.update_noteq h] at hv' ⊢; exact hi.invalid_clear j' hj' hv'

/-- Putting page `k` into an invalid frame `v` that nothing maps to keeps `Inv`. -/
theorem Inv.install (hi : Inv s) {v : Nat} (hv : v < s.numBufs)
    (hinv : (s.bufTable v).valid = false) {f : FileId} {p : Int}
    (hk : s.hashTable.find (some f, p) = none) :
    Inv { s with
          hashTable := ⟨Function.update s.hashTable.find (some f, p) (some v)⟩,
          bufTable := Function.update s.bufTable v (.set f p) } where
  hand_lt := hi.hand_lt
  hash_iff k i := by
    simp only
    by_cases hkp : k = (some f, p)
    · subst hkp
      simp only [Function.update_same, Option.some.injEq]
      constructor
      · rintro rfl; exact ⟨v, rfl, hv, by simp [BufDesc.set], by simp⟩
      · rintro ⟨j, rfl, hj, hvj, hkj⟩
        by_cases hjv : j = v
        · rw [hjv]
        · rw [Function.update_noteq hjv] at hvj hkj
          rw [← hkj, hi.find_self hj hvj] at hk; cases hk
    · rw [Function.update_noteq hkp, hi.hash_iff]
      refine exists_congr fun j => ?_
      by_cases hjv : j = v
      · subst hjv; simp [hinv, Ne.symm hkp]
      · simp [Function.update_noteq hjv]
  invalid_clear j hj hvj := by
    by_cases hjv : j = v
    · subst hjv; simp [BufDesc.set] at hvj
    · simp only [Function.update_noteq hjv] at hvj ⊢; exact hi.invalid_clear j hj hvj

/-- Dropping frame `v`'s mapping and giving it an invalid, reset descriptor keeps `Inv`. -/
theorem Inv.drop (hi : Inv s) {v : Nat} (hv : v < s.numBufs) (hval : (s.bufTable v).valid = true)
    {d : BufDesc} (hd : d.valid = false) (hd' : d.pinCnt = 0 ∧ d.dirty = false ∧ d.file = none) :
    Inv { s with
          hashTable := ⟨Function.update s.hashTable.find (s.bufTable v).key none⟩,
          bufTable := Function.update s.bufTable v d } where
  hand_lt := hi.hand_lt
  hash_iff k i := by
    simp only
    by_cases hkv : k = (s.bufTable v).key
    · subst hkv
      simp only [Function.update_same, reduceCtorEq, false_iff, not_exists, not_and]
      rintro j rfl hj hvj hkj
      by_cases hjv : j = v
      · subst hjv; simp [hd] at hvj
      · rw [Function.update_noteq hjv] at hvj hkj
        exact hjv (hi.frame_unique hj hv hvj hval hkj)
    · rw [Function.update_noteq hkv, hi.hash_iff]
      refine exists_congr fun j => ?_
      by_cases hjv : j = v
      · subst hjv; simp [hd, Ne.symm hkv]
      · simp [Function.update_noteq hjv]
  invalid_clear j hj hvj := by
    by_cases hjv : j = v
    · subst hjv; simpa using hd'
    · simp only [Function.update_noteq hjv] at hvj ⊢; exact hi.invalid_clear j hj hvj

/-! ## `allocBuf` -/

variable {io : FileAnswers}

theorem Inv.evicted (hi : Inv t) (hv : (t.bufTable t.clockHand).valid = true) {s1 : BufMgr P}
    (hw : t.victimWrite io = .ok s1) : Inv (evicted t s1) := by
  have h := (hi.drop hi.hand_lt hv (d := .clear) rfl ⟨rfl, rfl, rfl⟩).pages t.bufPool s1.disk
  rcases victimWrite_ok hw with rfl | ⟨-, -, rfl⟩ <;> exact h

theorem allocBuf_cases (io : FileAnswers) (hi : Inv s) : ∃ t, Sweep s t ∧ Inv t ∧
    (((t.bufTable t.clockHand).valid = false ∧ allocBuf io s = (.ok t.clockHand, t.advanceClock)) ∨
      ((t.bufTable t.clockHand).valid = true ∧ (t.bufTable t.clockHand).pinCnt = 0 ∧
        (((∃ e, t.victimWrite io = .error e) ∧ allocBuf io s = (.error .UNIXERR, t)) ∨
          ∃ s1, t.victimWrite io = .ok s1 ∧ allocBuf io s = (.ok t.clockHand, evicted t s1))) ∨
      allocBuf io s = (.error .BUFFEREXCEEDED, t)) := by
  obtain ⟨t, hst, h | ⟨hv, -, hp, h⟩ | h⟩ := allocBufLoop_cases io (s.numBufs * 2) s
  · exact ⟨t, hst, hst.inv hi, .inl h⟩
  · have hit := hst.inv hi
    rcases evict_cases io t with ⟨he, h2⟩ | ⟨s1, hw, ⟨hf, -⟩ | ⟨-, h2⟩⟩
    · exact ⟨t, hst, hit, .inr (.inl ⟨hv, hp, .inl ⟨he, h.trans h2⟩⟩)⟩
    · rw [hit.find_self hit.hand_lt hv] at hf; cases hf
    · exact ⟨t, hst, hit, .inr (.inl ⟨hv, hp, .inr ⟨s1, hw, h.trans h2⟩⟩)⟩
  · exact ⟨t, hst, hst.inv hi, .inr (.inr h)⟩

/-- The hash table of the state an eviction leaves. -/
theorem evicted_find (t s1 : BufMgr P) (k : Key) : (evicted t s1).hashTable.find k =
    if k = (t.bufTable t.clockHand).key then none else t.hashTable.find k := by
  by_cases hk : k = (t.bufTable t.clockHand).key
  · subst hk; simp [evicted]
  · simp [evicted, hk, Function.update_noteq hk]

theorem allocBuf_inv (io : FileAnswers) (hi : Inv s) : Inv (allocBuf io s).2 := by
  obtain ⟨t, -, hit, ⟨-, h⟩ | ⟨hv, -, ⟨-, h⟩ | ⟨s1, hw, h⟩⟩ | h⟩ := allocBuf_cases io hi <;>
    rw [h]
  · exact (sweep_advance t).inv hit
  · exact hit
  · exact hit.evicted hv hw
  · exact hit

theorem allocBuf_numBufs (io : FileAnswers) (hi : Inv s) : (allocBuf io s).2.numBufs = s.numBufs := by
  obtain ⟨t, hst, -, ⟨-, h⟩ | ⟨-, -, ⟨-, h⟩ | ⟨s1, hw, h⟩⟩ | h⟩ := allocBuf_cases io hi <;>
    rw [h, ← hst.numBufs]
  · rfl
  · rcases victimWrite_ok hw with rfl | ⟨-, -, rfl⟩ <;> rfl

/-- `allocBuf` only removes hash entries. -/
theorem allocBuf_find (io : FileAnswers) (hi : Inv s) {k : Key} {i : Int}
    (h : (allocBuf io s).2.hashTable.find k = some i) : s.hashTable.find k = some i := by
  obtain ⟨t, hst, -, ⟨-, hab⟩ | ⟨-, -, ⟨-, hab⟩ | ⟨s1, -, hab⟩⟩ | hab⟩ := allocBuf_cases io hi <;>
    rw [hab] at h <;> rw [← hst.hashTable]
  · exact h
  · exact h
  · rw [evicted_find] at h; split at h
    · cases h
    · exact h
  · exact h

/-- On OK the frame is in range and invalid. -/
theorem allocBuf_ok (io : FileAnswers) (hi : Inv s) {v : Nat} (h : (allocBuf io s).1 = .ok v) :
    v < s.numBufs ∧ ((allocBuf io s).2.bufTable v).valid = false := by
  obtain ⟨t, hst, hit, ⟨hv, hab⟩ | ⟨-, -, ⟨-, hab⟩ | ⟨s1, -, hab⟩⟩ | hab⟩ :=
    allocBuf_cases io hi <;> rw [hab] at h ⊢ <;> cases h
  · exact ⟨hst.numBufs ▸ hit.hand_lt, hv⟩
  · exact ⟨hst.numBufs ▸ hit.hand_lt, by simp [evicted, BufDesc.clear]⟩

/-! ## One lemma per operation -/

theorem readInto_inv (hi : Inv s) {f : FileId} {p : Int} (hf : s.hashTable.find (some f, p) = none)
    {v : Nat} (hv : v < s.numBufs) (hinv : (s.bufTable v).valid = false) :
    Inv (readInto io s f p v).2 := by
  unfold readInto
  split
  · simp only [BufHashTbl.insert, hf, updAt_natCast, setDescAt_natCast]
    exact (hi.install hv hinv hf).pages _ s.disk
  · exact hi

/-- `readInto` at `frameNo = -1` keeps `Inv` exactly when it does not return OK. -/
theorem readInto_neg_inv (hi : Inv s) {f : FileId} {p : Int}
    (hf : s.hashTable.find (some f, p) = none) (h : (readInto io s f p (-1)).1 ≠ .ok (-1)) :
    Inv (readInto io s f p (-1)).2 := by
  unfold readInto at h ⊢
  revert h
  split
  · simp [BufHashTbl.insert, hf]
  · exact fun _ => hi

theorem readPage_inv (io : FileAnswers) (hi : Inv s) (f : FileId) (p : Int)
    (h : (readPage io s f p).1 ≠ .ok (-1)) : Inv (readPage io s f p).2 := by
  unfold readPage readPageWith at h ⊢
  cases hl : s.hashTable.lookup (some f, p) with
  | ok i =>
    obtain ⟨j, rfl, -, hv, -⟩ := hi.find_frame (BufHashTbl.lookup_eq_ok.1 hl)
    simp only [descAt_natCast, setDescAt_natCast]
    exact hi.setValid hv hv rfl
  | error e =>
    simp only [hl] at h
    have hf := (BufHashTbl.lookup_eq_error.1 hl).1
    obtain ⟨t, hst, hit, ⟨hv, hab⟩ | ⟨hv, -, ⟨-, hab⟩ | ⟨s1, hw, hab⟩⟩ | hab⟩ :=
      allocBuf_cases io hi <;> rw [hab] at h ⊢ <;> have hft := hst.hashTable ▸ hf
    · exact readInto_inv ((sweep_advance t).inv hit) hft hit.hand_lt hv
    · exact readInto_neg_inv hit hft h
    · have hn : (evicted t s1).numBufs = t.numBufs := by rw [evicted, victimWrite_eq hw]; rfl
      refine readInto_inv (hit.evicted hv hw) ?_ (hn ▸ hit.hand_lt) ?_
      · rw [evicted_find]; split <;> simp_all
      · simp [evicted, BufDesc.clear]
    · exact hit

theorem unPinPage_inv (hi : Inv s) (f : FileId) (p : Int) (dirty : Bool) :
    Inv (unPinPage s f p dirty).2 := by
  unfold unPinPage
  cases hl : s.hashTable.lookup (some f, p) with
  | error e => exact hi
  | ok i =>
    obtain ⟨j, rfl, -, hv, -⟩ := hi.find_frame (BufHashTbl.lookup_eq_ok.1 hl)
    simp only [descAt_natCast, setDescAt_natCast]
    split
    · exact hi
    · exact hi.setValid hv hv rfl

theorem allocPage_inv (io : FileAnswers) (hi : Inv s) (f : FileId) : Inv (allocPage io s f).2 := by
  unfold allocPage allocPageWith
  split
  · rename_i pageNo _
    have ha := allocBuf_inv io hi
    have hok : ∀ v, (allocBuf io s).1 = .ok v → _ := fun v => allocBuf_ok io hi (v := v)
    have hn := allocBuf_numBufs io hi
    revert ha hok hn
    generalize allocBuf io s = r
    obtain ⟨_ | v, s1⟩ := r
    · exact fun ha _ _ => ha
    · intro ha hok hn
      obtain ⟨hv, hinv⟩ := hok v rfl
      cases hf : s1.hashTable.find (some f, pageNo) with
      | some _ => simpa [BufHashTbl.insert, hf] using ha
      | none =>
        simp only [BufHashTbl.insert, hf]
        exact ha.install (hn ▸ hv) hinv hf
  · exact hi

theorem disposePage_inv (io : FileAnswers) (hi : Inv s) (f : FileId) (p : Int) :
    Inv (disposePage io s f p).2 := by
  unfold disposePage
  cases hl : s.hashTable.lookup (some f, p) with
  | error e =>
    have hf := (BufHashTbl.lookup_eq_error.1 hl).1
    simpa [BufHashTbl.remove, hf] using hi
  | ok i =>
    have hf := BufHashTbl.lookup_eq_ok.1 hl
    obtain ⟨j, rfl, hj, hv, hk⟩ := hi.find_frame hf
    simp only [setDescAt_natCast, setDesc, BufHashTbl.remove, hf]
    rw [← hk]
    exact hi.drop hj hv rfl ⟨rfl, rfl, rfl⟩

theorem flushFrames_inv (io : FileAnswers) (f : FileId) :
    ∀ (is : List Nat) (s : BufMgr P), (∀ i ∈ is, i < s.numBufs) → Inv s →
      Inv (flushFrames io f is s).2
  | [], _, _, hi => hi
  | i :: is, s, hr, hi => by
    simp only [flushFrames]
    split
    next hvf =>
      split
      · exact hi
      next hp =>
        split
        · exact hi
        next s1 hw =>
          have hs1 : s1 = { s with disk := s1.disk } := by
            split at hw
            · rw [(writeBack_eq_ok.1 hw).2]
            · cases hw; rfl
          have hn1 : s1.numBufs = s.numBufs := by rw [hs1]
          refine flushFrames_inv io f is _ (fun j hj => hn1 ▸ hr j (.tail _ hj)) ?_
          rw [hs1]
          have hk : (s.bufTable i).key = (some f, (s.bufTable i).pageNo) := by
            simp [BufDesc.key, hvf.2]
          have hfi : s.hashTable.find (some f, (s.bufTable i).pageNo) = some (i : Int) :=
            hk ▸ hi.find_self (hr i (.head _)) hvf.1
          have hd := hi.drop (hr i (.head _)) hvf.1
            (d := { s.bufTable i with dirty := false, file := none, pageNo := -1, valid := false })
            rfl ⟨Nat.eq_zero_of_not_pos hp, rfl, rfl⟩
          rw [hk] at hd
          simpa [dropFrame, BufHashTbl.remove, hfi] using hd.pages s.bufPool s1.disk
    · split
      · exact hi
      · exact flushFrames_inv io f is s (fun j hj => hr j (.tail _ hj)) hi

theorem flushFile_inv (io : FileAnswers) (hi : Inv s) (f : FileId) : Inv (flushFile io s f).2 :=
  flushFrames_inv io f _ s (fun _ hi => List.mem_range.1 hi) hi

theorem init_inv [Inhabited P] {n : Nat} (hn : 0 < n) (disk : Key → P) : Inv (init n disk) where
  hand_lt := by simp [init]; omega
  hash_iff k i := by simp [init, BufHashTbl.empty, BufDesc.zero]
  invalid_clear _ _ _ := ⟨rfl, rfl, rfl⟩

theorem readInto_ne_minus_one (f : FileId) (p : Int) (v : Nat) :
    (readInto io s f p v).1 ≠ .ok (-1) := by
  unfold readInto; split
  · cases hf : s.hashTable.find (some f, p) <;> simp [BufHashTbl.insert, hf]
  · simp

/-- With every write-back succeeding, `readPage` never takes the `frameNo = -1` path. -/
theorem readPage_ne_minus_one (hi : Inv s) (hw : ∀ k, io.writePage k = .OK) (f : FileId) (p : Int) :
    (readPage io s f p).1 ≠ .ok (-1) := by
  unfold readPage readPageWith
  cases hl : s.hashTable.lookup (some f, p) with
  | ok i =>
    obtain ⟨j, rfl, -⟩ := hi.find_frame (BufHashTbl.lookup_eq_ok.1 hl)
    simp only [ne_eq, Except.ok.injEq]; omega
  | error e =>
    simp only
    obtain ⟨t, -, -, ⟨-, hab⟩ | ⟨-, -, ⟨⟨e, he⟩, -⟩ | ⟨s1, -, hab⟩⟩ | hab⟩ :=
      allocBuf_cases io hi
    · rw [hab]; exact readInto_ne_minus_one f p _
    · unfold victimWrite at he; split at he
      · rw [writeBack, hw] at he; cases he
      · cases he
    · rw [hab]; exact readInto_ne_minus_one f p _
    · rw [hab]; simp

/-! ## Runs -/

/-- A call that is not a `readPage` returning the frame `-1`. -/
def InRange (io : FileAnswers) (s : BufMgr P) : Call → Prop
  | .readPage f p => (readPage io s f p).1 ≠ .ok (-1)
  | _ => True

/-- The pool's runs that never take `readPage`'s `frameNo = -1` path. -/
def ltsInRange (P : Type) [Inhabited P] : LTS (BufMgr P) (FileAnswers × Call) where
  init := (lts P).init
  step s l s' := InRange l.1 s l.2 ∧ (lts P).step s l s'

theorem inv_inductive [Inhabited P] : (ltsInRange P).Inductive Inv where
  init s := by rintro ⟨n, disk, hn, rfl⟩; exact init_inv hn disk
  step s l s' hi := by
    rintro ⟨hr, rfl⟩
    obtain ⟨io, c⟩ := l
    cases c with
    | readPage f p => exact readPage_inv io hi f p hr
    | unPinPage f p d => exact unPinPage_inv hi f p d
    | allocPage f => exact allocPage_inv io hi f
    | disposePage f p => exact disposePage_inv io hi f p
    | flushFile f => exact flushFile_inv io hi f

/-- The DB layer's answers that make every call succeed. -/
def ioOk : FileAnswers :=
  { readPage := fun _ => .OK, writePage := fun _ => .OK, allocatePage := fun _ => (.OK, 0),
    disposePage := fun _ => .OK }

/-- The same answers, except that every `writePage` fails. -/
def ioNoWrite : FileAnswers := { ioOk with writePage := fun _ => .UNIXERR }

/-- A one-frame pool: page 1 of file 0 is read, then unpinned dirty; reading page 2
while page 1's write-back fails returns OK, and the hash table now maps page 2 to
the frame `-1`, outside `[0, numBufs)`. -/
theorem readPage_maps_minus_one :
    let s1 : BufMgr Nat := ((Call.readPage 0 1).run ioOk (init 1 fun _ => 0)).2
    let s2 := ((Call.unPinPage 0 1 true).run ioOk s1).2
    let r := (Call.readPage 0 2).run ioNoWrite s2
    r.1 = .OK ∧ r.2.hashTable.find (some 0, 2) = some (-1) ∧ (lts Nat).Reachable r.2 :=
  ⟨by decide, by decide,
    ⟨_, [(ioOk, .readPage 0 1), (ioOk, .unPinPage 0 1 true), (ioNoWrite, .readPage 0 2)],
      ⟨1, _, Nat.one_pos, rfl⟩, .cons rfl (.cons rfl (.cons rfl (.nil _)))⟩⟩

end Minirel.BufMgr
