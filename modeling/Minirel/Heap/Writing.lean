import Minirel.Heap.Reading

/-!
# A session that reads and writes the pages of one file

A handle that changes its file (`InsertFileScan`, a scan that deletes) reads
pages with `readPage`, allocates pages with `allocPage`, writes through the
page pointers it holds, and unpins dirty each page it wrote.
`Writing w₀ f us held wrote w` says what it may assume after some such calls in
a session begun at `w₀`, holding `held` pins per page, with `wrote` the pages of
`f` it wrote since their last dirty unpin:

* the pool keeps the invariants of `Minirel.Buffer.Content` for a ghost in
  which an owed page of `f` is one the handle wrote, or was pinned at the
  start, and a fresh page of `f` is one the handle wrote;
* the pool's pins are those of `w₀` plus the handle's, and a page the handle
  wrote is one it holds;
* the DB layer's files are those of `w₀`;
* the frames `us` carry no pins but the handle's (`Budget`);
* a page pinned at the start keeps its frame (`stay`);
* no page of `f` from the DB layer's next page number on is resident.

`Settled f us w` is what holds between two handles: every file read, write and
allocation succeeds, no page of `f` is fresh, the frames `us` are unpinned, and
no page of `f` past the allocated ones is resident.

**Results.**
* `Writing.start`, `Writing.settled`: a session starts from a settled world,
  and ends in one once the handle holds no pins and owes no write-back.
* `Writing.readPage`, `Writing.unPinPage`, `Writing.allocPage`: each call
  succeeds (given a free frame), and every page of `f` keeps its logical bytes.
* `Writing.write`: bytes written through the frame of a page the handle holds
  become the page's logical bytes, and no other page's.
-/
namespace Minirel

open BufMgr

/-- A world between two handles of file `f`, with the frames `us` free. -/
structure Settled (f : FileId) (us : List Nat) (w : World) : Prop where
  rw : w.io.ReadWriteOk
  alloc : (w.io.allocatePage f).1 = .OK
  content : ∃ g : Ghost, ContentInv (w.pool, g) ∧ ∀ q, g.fresh (some f, q) = false
  frames : ∀ u ∈ us, u < w.pool.numBufs ∧ (w.pool.bufTable u).pinCnt = 0
  unallocated : ∀ q, w.db.next f ≤ q → w.pool.hashTable.find (some f, q) = none

/-- What a handle that writes the pages of `f` may assume of the world `w`, in a
session begun at `w₀`, when it holds `held` pins on each page and has written
the pages `wrote` since their last dirty unpin. -/
structure Writing (w₀ : World) (f : FileId) (us : List Nat) (held : Key → Nat) (wrote : Int → Bool)
    (w : World) : Prop where
  origin : Settled f us w₀
  io : w.io = w₀.io
  files : w.db.files = w₀.db.files
  numBufs : w.pool.numBufs = w₀.pool.numBufs
  ghost : ∃ g : Ghost, ContentInv (w.pool, g) ∧
    (∀ k, g.owed k = true → 0 < pinOf w₀.pool k ∨ ∃ q, k = (some f, q) ∧ wrote q = true) ∧
    ∀ q, g.fresh (some f, q) = true → wrote q = true
  wroteHeld : ∀ q, wrote q = true → 0 < held (some f, q)
  ledger : ∀ k, pinOf w.pool k = pinOf w₀.pool k + held k
  budget : ∀ u ∈ us, Budget held w.pool u
  unallocated : ∀ q, w.db.next f ≤ q → w.pool.hashTable.find (some f, q) = none
  stay : ∀ k (j : Nat), w₀.pool.hashTable.find k = some (j : Int) → 0 < pinOf w₀.pool k →
    w.pool.hashTable.find k = some (j : Int)

/-- The pages with pins in `held` keep their frames from `w` to `w'`. -/
def Keeps (held : Key → Nat) (w w' : World) : Prop :=
  ∀ k (j : Nat), w.pool.hashTable.find k = some (j : Int) → 0 < held k → w'.pool.hashTable.find k = some (j : Int)

namespace Writing

variable {w₀ w : World} {f : FileId} {us : List Nat} {held : Key → Nat} {wrote : Int → Bool}

theorem start (h : Settled f us w₀) : Writing w₀ f us (fun _ => 0) (fun _ => false) w₀ := by
  obtain ⟨g, hc, hfr⟩ := h.content
  exact
    { origin := h
      io := rfl
      files := rfl
      numBufs := rfl
      ghost := ⟨g, hc, fun k hk => .inl (hc.owed k hk), fun q hq => by rw [hfr q] at hq; cases hq⟩
      wroteHeld := fun _ h => by cases h
      ledger := fun _ => rfl
      budget := fun u hu _ => Nat.le_of_eq (h.frames u hu).2
      unallocated := h.unallocated
      stay := fun _ _ hf _ => hf }

theorem congr {held' : Key → Nat} {wrote' : Int → Bool} (h : Writing w₀ f us held wrote w)
    (e : ∀ k, held k = held' k) (e' : ∀ q, wrote q = wrote' q) : Writing w₀ f us held' wrote' w :=
  funext e ▸ funext e' ▸ h

theorem readWriteOk (hW : Writing w₀ f us held wrote w) : w.io.ReadWriteOk := hW.io ▸ hW.origin.rw

/-- A session that holds no pins and owes no write-back leaves a settled world,
with the pins of its start. -/
theorem settled (hW : Writing w₀ f us (fun _ => 0) (fun _ => false) w) :
    Settled f us w ∧ pinOf w.pool = pinOf w₀.pool := by
  obtain ⟨g, hc, -, hfr⟩ := hW.ghost
  refine ⟨⟨hW.readWriteOk, hW.io ▸ hW.origin.alloc, ⟨g, hc, fun q => ?_⟩, fun u hu => ?_,
    hW.unallocated⟩, funext hW.ledger⟩
  · cases h : g.fresh (some f, q)
    · rfl
    · cases hfr q h
  · have hlt := hW.numBufs ▸ (hW.origin.frames u hu).1
    refine ⟨hlt, ?_⟩
    cases hv : (w.pool.bufTable u).valid
    · exact (hc.inv.invalid_clear u hlt hv).1
    · exact Nat.le_zero.1 (hW.budget u hu hv)

/-- While the handle holds pins on fewer pages than there are frames in `us`,
one frame is unpinned. -/
theorem free (hW : Writing w₀ f us held wrote w) (hnd : us.Nodup) {ks : List Key}
    (hks : ∀ k, 0 < held k → k ∈ ks) (hlt : ks.length < us.length) :
    ∃ u < w.pool.numBufs, (w.pool.bufTable u).pinCnt = 0 := by
  obtain ⟨g, hc, -⟩ := hW.ghost
  exact Budget.free hc.inv hnd (fun u hu => ⟨hW.numBufs ▸ (hW.origin.frames u hu).1, hW.budget u hu⟩) hks hlt

/-- Over an allowed call, a page of `f` that the call does not make fresh keeps
its logical bytes: if it is fresh, the handle wrote it, so it is pinned. -/
theorem logical_call (hW : Writing w₀ f us held wrote w) {g : Ghost} (hc : ContentInv (w.pool, g))
    (hfr : ∀ q, g.fresh (some f, q) = true → wrote q = true) {io : FileAnswers} (hrw : io.ReadWriteOk)
    (c : Call) (ha : Allowed (w.pool, g) c) {q : Int}
    (hnew : (g.after io c (c.run io w.pool).1).fresh (some f, q) = true → g.fresh (some f, q) = true) :
    logical (c.run io w.pool).2 (some f, q) = logical w.pool (some f, q) := by
  refine logical_keep hc.inv hc.clean hc.owed hrw c ha ?_
  cases h : (g.after io c (c.run io w.pool).1).fresh (some f, q)
  · exact .inl rfl
  · have := hW.wroteHeld q (hfr q (hnew h))
    exact .inr (by rw [hW.ledger]; omega)

/-- A call other than `disposePage` leaves the handle's pages, and those pinned
at the start, in their frames. -/
theorem keeps_call (hW : Writing w₀ f us held wrote w) (hi : Inv w.pool) {io : FileAnswers}
    (hrw : io.ReadWriteOk) (c : Call) (hd : ∀ f p, c ≠ .disposePage f p) :
    Keeps (fun k => pinOf w₀.pool k + held k) w { w with pool := (c.run io w.pool).2 } := fun k j hf hk =>
  (run_stays hi hrw c (fun f p h => absurd h (hd f p)) hf (by rw [← pinOf_of_find hf, hW.ledger]; exact hk)).find

theorem keeps_held {held' : Key → Nat} {w w' : World} (h : Keeps (fun k => held' k + held k) w w') :
    Keeps held w w' := fun k j hf hk => h k j hf (Nat.lt_of_lt_of_le hk (Nat.le_add_left _ _))

theorem stay_of_keeps (hW : Writing w₀ f us held wrote w) {w' : World}
    (h : Keeps (fun k => pinOf w₀.pool k + held k) w w') :
    ∀ k (j : Nat), w₀.pool.hashTable.find k = some (j : Int) → 0 < pinOf w₀.pool k →
      w'.pool.hashTable.find k = some (j : Int) := fun k j hf hp =>
  h k j (hW.stay k j hf hp) (Nat.lt_of_lt_of_le hp (Nat.le_add_right _ _))

/-- A `readPage` of an allocated page of `f`, with a frame free: it succeeds, maps
the page to the frame returned, and the handle holds one more pin on it. -/
theorem readPage (hW : Writing w₀ f us held wrote w) {q : Int} (hq : q < w.db.next f)
    (hfree : ∃ u < w.pool.numBufs, (w.pool.bufTable u).pinCnt = 0) :
    ∃ (j : Nat) (w' : World), w.readPage (some f) q = (.ok j, w') ∧
      w'.pool.hashTable.find (some f, q) = some (j : Int) ∧ w'.db = w.db ∧
      (∀ q', logical w'.pool (some f, q') = logical w.pool (some f, q')) ∧ Keeps held w w' ∧
      Writing w₀ f us (fun k => held k + onePin (some f, q) k) wrote w' := by
  have hrw := hW.readWriteOk
  obtain ⟨g, hc, how, hfr⟩ := hW.ghost
  have hi : Inv w.pool := hc.inv
  obtain ⟨j, hj⟩ := readPage_ok hi hrw f q (.inr hfree)
  have hcc := run_content hi hc.clean hc.owed hrw (.readPage f q) trivial
  simp only [run_readPage, Ghost.after_readPage] at hcc
  refine ⟨j, { w with pool := (BufMgr.readPage w.io w.pool f q).2 }, by rw [World.readPage_some, hj],
    readPage_find hi hrw f q hj, rfl, fun q' => hW.logical_call hc hfr hrw (.readPage f q) trivial (by simp),
    keeps_held (hW.keeps_call hi hrw (.readPage f q) nofun), ?_⟩
  exact
    { origin := hW.origin
      io := hW.io
      files := hW.files
      numBufs := by rw [← hW.numBufs]; exact readPage_numBufs hi hrw f q
      ghost := ⟨g, ⟨by simpa using run_inv hi hrw.write (.readPage f q), hcc.1, hcc.2.1⟩, how, hfr⟩
      wroteHeld := fun q' h => Nat.lt_of_lt_of_le (hW.wroteHeld q' h) (Nat.le_add_right _ _)
      ledger := fun k => by rw [pinOf_readPage hi hrw hj, hW.ledger, Nat.add_assoc]; rfl
      budget := fun u hu => budget_readPage hi hrw f q (hW.budget u hu)
      unallocated := fun q' (hq' : w.db.next f ≤ q') => readPage_find_none hi hrw f q (hW.unallocated q' hq')
        fun h => by simp only [Prod.mk.injEq, true_and] at h; omega
      stay := hW.stay_of_keeps (hW.keeps_call hi hrw (.readPage f q) nofun) }

/-- A flag that a dirty unpin clears at `a` (and a clean one leaves) is set
exactly where it was set before, away from `a` when the unpin was dirty. -/
theorem cleared_eq_true {α : Type} [DecidableEq α] {p : α → Bool} {a x : α} {d : Bool} :
    (if d then Function.update p a false else p) x = true ↔ p x = true ∧ (d = true → x ≠ a) := by
  cases d
  · simp
  · by_cases hx : x = a
    · subst hx; simp
    · simp [Function.update_noteq hx, hx]

/-- An `unPinPage` of a page the handle holds succeeds and takes one pin off it.
A clean one is of a page the handle did not write; a dirty one settles the page. -/
theorem unPinPage (hW : Writing w₀ f us held wrote w) {q : Int} (hh : 0 < held (some f, q)) (d : Bool)
    (hd : d = false → wrote q = false) :
    ∃ w' : World, w.unPinPage (some f) q d = (.OK, w') ∧ w'.db = w.db ∧
      (∀ q', logical w'.pool (some f, q') = logical w.pool (some f, q')) ∧ Keeps held w w' ∧
      Writing w₀ f us (fun k => held k - onePin (some f, q) k)
        (if d then Function.update wrote q false else wrote) w' := by
  have hrw := hW.readWriteOk
  obtain ⟨g, hc, how, hfr⟩ := hW.ghost
  have hi : Inv w.pool := hc.inv
  obtain ⟨j, hf, hp⟩ := find_of_pinOf_pos hi (by rw [hW.ledger]; omega : 0 < pinOf w.pool (some f, q))
  have hu := unPinPage_held hi hf hp d
  have ha : Allowed (w.pool, g) (.unPinPage f q d) := by
    cases d
    · rintro ⟨ho, h1⟩
      rcases how _ ho with h0 | ⟨q', hk, hw'⟩
      · rw [hW.ledger] at h1; omega
      · simp only [Prod.mk.injEq, true_and] at hk; subst hk; rw [hd rfl] at hw'; cases hw'
    · trivial
  -- a dirty unpin clears the page's flags in the ghost, a clean one changes nothing
  let g' : Ghost := ⟨if d then Function.update g.owed (some f, q) false else g.owed,
    if d then Function.update g.fresh (some f, q) false else g.fresh⟩
  have hg' : g.after w.io (.unPinPage f q d) ((Call.unPinPage f q d).run w.io w.pool).1 = g' := by
    cases d <;> simp only [run_unPinPage, hu, Ghost.after_unPinPage_true, Ghost.after_unPinPage_false] <;> rfl
  have hcc := run_content hi hc.clean hc.owed hrw (.unPinPage f q d) ha
  rw [hg'] at hcc
  simp only [run_unPinPage, hu] at hcc
  have hkq : ∀ {q'}, (some f, q') ≠ (some f, q) → q' ≠ q := fun h e => h (by rw [e])
  refine ⟨{ w with pool := w.pool.unpinned j d }, by rw [World.unPinPage_some, hu], rfl,
    fun q' => by simpa only [run_unPinPage, hu] using
      hW.logical_call hc hfr hrw (.unPinPage f q d) ha (by rw [hg']; exact fun h => (cleared_eq_true.1 h).1),
    fun _ _ hk _ => hk, ?_⟩
  refine
    { origin := hW.origin
      io := hW.io
      files := hW.files
      numBufs := hW.numBufs
      ghost := ⟨g', ⟨by simpa [hu] using unPinPage_inv hi f q d, hcc.1, hcc.2.1⟩, fun k hk => ?_, fun q' hq' => ?_⟩
      wroteHeld := fun q' hq' => ?_
      ledger := fun k => ?_
      budget := fun u hu => (hW.budget u hu).unpinned hi (hW.numBufs ▸ (hW.origin.frames u hu).1) hf d
      unallocated := hW.unallocated
      stay := hW.stay }
  · -- owed: what stays owed was owed, and a page of `f` the handle wrote stays written
    obtain ⟨h1, h2⟩ := cleared_eq_true.1 hk
    rcases how k h1 with h0 | ⟨q', rfl, hw'⟩
    · exact .inl h0
    · exact .inr ⟨q', rfl, cleared_eq_true.2 ⟨hw', fun hd' => hkq (h2 hd')⟩⟩
  · obtain ⟨h1, h2⟩ := cleared_eq_true.1 hq'
    exact cleared_eq_true.2 ⟨hfr q' h1, fun hd' => hkq (h2 hd')⟩
  · -- a page still written keeps a pin: the handle's own, minus none at `q`
    obtain ⟨hw', hne⟩ := cleared_eq_true.1 hq'
    have := hW.wroteHeld q' hw'
    unfold onePin
    split
    · next h =>
      simp only [Prod.mk.injEq, true_and] at h; subst h
      cases d
      · rw [hd rfl] at hw'; cases hw'
      · exact absurd rfl (hne rfl)
    · omega
  · have h1 := pinOf_unpinned hi hf hp d k
    have h2 := hW.ledger k
    show pinOf _ k = _
    unfold onePin
    by_cases hk : k = (some f, q)
    · subst hk; simp only [if_true] at h1 ⊢; omega
    · simp only [hk, if_false] at h1 ⊢; omega

/-- Bytes written through the frame of a page of `f` the handle holds become the
page's logical bytes; every other page keeps its own. -/
theorem write (hW : Writing w₀ f us held wrote w) {q : Int} {j : Nat}
    (hf : w.pool.hashTable.find (some f, q) = some (j : Int)) (hh : 0 < held (some f, q)) (b : Img) :
    (∀ q', logical (w.setFrame j b).pool (some f, q') = if q' = q then b else logical w.pool (some f, q')) ∧
      Writing w₀ f us held (Function.update wrote q true) (w.setFrame j b) := by
  obtain ⟨g, hc, how, hfr⟩ := hW.ghost
  have hi : Inv w.pool := hc.inv
  have hp : 0 < (w.pool.bufTable j).pinCnt := by rw [← pinOf_of_find hf, hW.ledger]; omega
  have hset : (w.setFrame j b).pool = { w.pool with bufPool := Function.update w.pool.bufPool j b } := by
    simp [World.setFrame]
  have hkq : ∀ {q'}, (some f, q') = (some f, q) ↔ q' = q := by simp
  refine ⟨fun q' => by rw [hset, logical_write hf b hi]; simp only [hkq], ?_⟩
  refine
    { origin := hW.origin
      io := hW.io
      files := hW.files
      numBufs := hW.numBufs
      ghost := ⟨⟨Function.update g.owed (some f, q) true, g.fresh⟩,
        hset ▸ ⟨hi.pages _ _, hc.clean.write hf b hi, hc.owed.write hf b hp⟩, fun k hk => ?_, fun q' hq' => ?_⟩
      wroteHeld := fun q' hq' => ?_
      ledger := hW.ledger
      budget := hW.budget
      unallocated := hW.unallocated
      stay := hW.stay }
  · by_cases hkk : k = (some f, q)
    · exact .inr ⟨q, hkk, by simp⟩
    · rcases how k (by simpa [Function.update_noteq hkk] using hk) with h0 | ⟨q', rfl, hw'⟩
      · exact .inl h0
      · refine .inr ⟨q', rfl, ?_⟩
        rw [Function.update_apply]; split
        · rfl
        · exact hw'
  · rw [Function.update_apply]; split
    · rfl
    · exact hfr q' hq'
  · rw [Function.update_apply] at hq'; split at hq'
    · subst q'; exact hh
    · exact hW.wroteHeld q' hq'

/-- An `allocPage` for `f`, with a frame free: it succeeds with the DB layer's next
page number, maps it to the frame returned, and the handle holds a pin on it.
The handle counts the new page as written: its bytes are unspecified until the
handle formats it. -/
theorem allocPage (hW : Writing w₀ f us held wrote w)
    (hfree : ∃ u < w.pool.numBufs, (w.pool.bufTable u).pinCnt = 0) :
    ∃ (v : Nat) (w' : World), w.allocPage (some f) = (.ok (w.db.next f, v), w') ∧ w'.db = w.db.allocated f ∧
      w'.pool.hashTable.find (some f, w.db.next f) = some (v : Int) ∧
      (∀ q, q ≠ w.db.next f → logical w'.pool (some f, q) = logical w.pool (some f, q)) ∧ Keeps held w w' ∧
      Writing w₀ f us (fun k => held k + onePin (some f, w.db.next f) k)
        (Function.update wrote (w.db.next f) true) w' := by
  have hrw' : w.answers.ReadWriteOk := ⟨hW.readWriteOk.read, hW.readWriteOk.write⟩
  obtain ⟨g, hc, how, hfr⟩ := hW.ghost
  have hi : Inv w.pool := hc.inv
  have hal : (w.io.allocatePage f).1 = .OK := hW.io ▸ hW.origin.alloc
  have hn : w.pool.hashTable.find (some f, w.db.next f) = none := hW.unallocated _ (Int.le_refl _)
  obtain ⟨u, hu, hp⟩ := hfree
  obtain ⟨v, hv, ha⟩ := allocPage_ok hi hrw'.write f hal hn hu hp
  have hcc := run_content hi hc.clean hc.owed hrw' (.allocPage f) trivial
  simp only [run_allocPage, ha, statusOf, Ghost.after_allocPage] at hcc
  have hkq : ∀ {q q' : Int}, (some f, q) = (some f, q') ↔ q = q' := by simp
  let t := (allocBuf w.answers w.pool).2
  refine ⟨v, { w with pool := t.install v f (w.db.next f) (t.bufPool v), db := w.db.allocated f },
    by simp only [World.allocPage, ha, if_pos hal]; rfl, rfl, by simp, fun q hq => ?_,
    by simpa only [run_allocPage, ha] using keeps_held (hW.keeps_call hi hrw' (.allocPage f) nofun), ?_⟩
  · have := hW.logical_call hc hfr hrw' (.allocPage f) trivial (q := q) (by
      simp only [run_allocPage, ha, statusOf, Ghost.after_allocPage]
      intro h; rwa [Function.update_noteq (by rwa [Ne, hkq])] at h)
    simpa only [run_allocPage, ha] using this
  refine
    { origin := hW.origin
      io := hW.io
      files := hW.files
      numBufs := by rw [← hW.numBufs, install_numBufs, allocBuf_numBufs w.answers hi]
      ghost := ⟨_, ⟨by simpa [ha] using allocPage_inv w.answers hi f, hcc.1, hcc.2.1⟩, fun k hk => ?_,
        fun q hq => ?_⟩
      wroteHeld := fun q hq => ?_
      ledger := fun k => by rw [pinOf_allocated hi hv hn, hW.ledger, Nat.add_assoc]; rfl
      budget := fun u hu => (allocBuf_budget w.answers hi (hW.budget u hu)).install v f _ _
      unallocated := fun q hq => ?_
      stay := hW.stay_of_keeps (by simpa only [run_allocPage, ha] using hW.keeps_call hi hrw' (.allocPage f) nofun) }
  · rcases how k hk with h0 | ⟨q, rfl, hw'⟩
    · exact .inl h0
    · refine .inr ⟨q, rfl, ?_⟩
      rw [Function.update_apply]; split
      · rfl
      · exact hw'
  · have hq' : Function.update g.fresh (some f, w.db.next f) true (some f, q) = true := hq
    rw [Function.update_apply]; split
    · rfl
    · next hne => exact hfr q (by rwa [Function.update_noteq (by rwa [Ne, hkq])] at hq')
  · rw [Function.update_apply] at hq; split at hq
    · subst q; simp [onePin]
    · exact Nat.lt_of_lt_of_le (hW.wroteHeld q hq) (Nat.le_add_right _ _)
  · simp only [Db.allocated_next] at hq
    simp only [install_find, Function.update_noteq (show (some f, q) ≠ (some f, w.db.next f) by
      rw [Ne, hkq]; omega)]
    exact allocBuf_find_none w.answers hi (hW.unallocated q (by omega))

end Writing

end Minirel
