import Minirel.Buffer.Session
import Minirel.Heap.World

/-!
# A read-only session with the pool

A heap-file handle that only reads (a scan) talks to the pool through
`readPage` and clean `unPinPage` calls. `Reading w₀ g u₁ u₂ held w` says what
the handle may assume after some such calls, starting from the world `w₀`,
with `held` its pins per page:

* the pool keeps the invariants of `Minirel.Buffer.Content` for the clients'
  ghost `g`, and every page that is not fresh keeps its logical bytes;
* the pool's pins are those of `w₀` plus the handle's (`ledger`);
* the frames `u₁` and `u₂`, unpinned in `w₀`, carry no pins but the handle's
  (`Budget`), so while the handle holds one page a `readPage` finds a frame;
* a page pinned in `w₀` keeps its frame and the frame's bytes (`stay`): pins
  another handle holds are not the reading handle's to release.

**Results.**
* `Reading.readPage`: a `readPage` that finds a frame succeeds, maps the page
  to the frame returned, which holds the page's logical bytes, and adds one to
  the handle's pins on the page.
* `Reading.unPinPage`: a clean `unPinPage` of a page the handle holds succeeds
  and takes one off its pins.
* `Reading.free`: while the handle holds at most one page, a frame is unpinned.
-/
namespace Minirel

open BufMgr

/-- One pin on page `k₀`. -/
def onePin (k₀ k : Key) : Nat := if k = k₀ then 1 else 0

/-- What a handle that only reads may assume of the world `w`, in a session
begun at `w₀`, when it holds `held` pins on each page. -/
structure Reading (w₀ : World) (g : Ghost) (u₁ u₂ : Nat) (held : Key → Nat) (w : World) : Prop where
  io : w.io = w₀.io
  rw : w₀.io.ReadWriteOk
  db : w.db = w₀.db
  numBufs : w.pool.numBufs = w₀.pool.numBufs
  content : ContentInv (w.pool, g)
  owed : OwedPinned g w₀.pool
  logical : ∀ k, g.fresh k = false → logical w.pool k = logical w₀.pool k
  ledger : ∀ k, pinOf w.pool k = pinOf w₀.pool k + held k
  lt₁ : u₁ < w₀.pool.numBufs
  lt₂ : u₂ < w₀.pool.numBufs
  budget₁ : Budget held w.pool u₁
  budget₂ : Budget held w.pool u₂
  stay : ∀ k (j : Nat), w₀.pool.hashTable.find k = some (j : Int) → 0 < pinOf w₀.pool k →
    w.pool.hashTable.find k = some (j : Int) ∧ w.pool.bufPool j = w₀.pool.bufPool j

namespace Reading

variable {w₀ w : World} {g : Ghost} {u₁ u₂ : Nat} {held : Key → Nat}

/-- The session's start: two unpinned frames, no pins held. -/
theorem start (hrw : w₀.io.ReadWriteOk) (hc : ContentInv (w₀.pool, g)) (h₁ : u₁ < w₀.pool.numBufs)
    (h₂ : u₂ < w₀.pool.numBufs) (hp₁ : (w₀.pool.bufTable u₁).pinCnt = 0)
    (hp₂ : (w₀.pool.bufTable u₂).pinCnt = 0) : Reading w₀ g u₁ u₂ (fun _ => 0) w₀ where
  io := rfl
  rw := hrw
  db := rfl
  numBufs := rfl
  content := hc
  owed := hc.owed
  logical _ _ := rfl
  ledger _ := rfl
  lt₁ := h₁
  lt₂ := h₂
  budget₁ _ := Nat.le_of_eq hp₁
  budget₂ _ := Nat.le_of_eq hp₂
  stay _ _ hf _ := ⟨hf, rfl⟩

theorem congr {held' : Key → Nat} (h : Reading w₀ g u₁ u₂ held w) (e : ∀ k, held k = held' k) :
    Reading w₀ g u₁ u₂ held' w :=
  funext e ▸ h

/-- A frame is unpinned while the handle holds at most one pin, on one page. -/
theorem free (hR : Reading w₀ g u₁ u₂ held w) (hne : u₁ ≠ u₂) {k₀ : Key}
    (hk : ∀ k, held k ≤ onePin k₀ k) : ∃ u < w.pool.numBufs, (w.pool.bufTable u).pinCnt = 0 := by
  have hus : ∀ u ∈ [u₁, u₂], u < w.pool.numBufs ∧ Budget held w.pool u := by
    simp only [List.mem_cons, List.mem_singleton, List.not_mem_nil, or_false]
    rintro u (rfl | rfl)
    · exact ⟨hR.numBufs ▸ hR.lt₁, hR.budget₁⟩
    · exact ⟨hR.numBufs ▸ hR.lt₂, hR.budget₂⟩
  have hks : ∀ k, 0 < held k → k ∈ [k₀] := fun k hp => by
    have := hk k; unfold onePin at this; split at this
    · exact List.mem_singleton.2 ‹_›
    · omega
  exact Budget.free hR.content.inv (by simp [hne]) hus hks Nat.one_lt_two

/-- A successful `readPage`: the page is mapped to the frame returned, the frame
holds the page's logical bytes, the handle holds one more pin on it. -/
theorem readPage (hR : Reading w₀ g u₁ u₂ held w) (f : FileId) (p : Int)
    (hfree : w.pool.hashTable.find (some f, p) ≠ none ∨ ∃ u < w.pool.numBufs, (w.pool.bufTable u).pinCnt = 0) :
    ∃ (j : Nat) (w' : World), w.readPage (some f) p = (.ok j, w') ∧
      w'.pool.hashTable.find (some f, p) = some (j : Int) ∧ w'.pool.bufPool j = BufMgr.logical w.pool (some f, p) ∧
      Reading w₀ g u₁ u₂ (fun k => held k + onePin (some f, p) k) w' := by
  have hrw : w.io.ReadWriteOk := hR.io ▸ hR.rw
  have hi := hR.content.inv
  obtain ⟨j, hj⟩ := readPage_ok hi hrw f p hfree
  have hc := run_content hi hR.content.clean hR.content.owed hrw (.readPage f p) trivial
  simp only [run_readPage, Ghost.after_readPage] at hc
  refine ⟨j, _, by rw [World.readPage_some, hj], readPage_find hi hrw f p hj,
    readPage_logical hi hrw f p hj, ?_⟩
  refine ⟨hR.io, hR.rw, hR.db, ?_, ⟨?_, hc.1, hc.2.1⟩, hR.owed, fun k hk => ?_, fun k => ?_, hR.lt₁, hR.lt₂,
    budget_readPage hi hrw f p hR.budget₁, budget_readPage hi hrw f p hR.budget₂, fun k i hf hp => ?_⟩
  · rw [← hR.numBufs]; exact readPage_numBufs hi hrw f p
  · simpa using run_inv hi hrw.write (.readPage f p)
  · rw [hc.2.2 k hk, hR.logical k hk]
  · have := run_pinOf hi hrw (.readPage f p) (fun _ _ h => by cases h) k
    simp only [run_readPage, hj, statusOf, pinDelta, if_true, hR.ledger k] at this
    show pinOf _ k = _
    unfold onePin
    by_cases hk : k = (some f, p) <;> simp only [hk, if_true, if_false] at this ⊢ <;> omega
  · obtain ⟨hf', hb⟩ := hR.stay k i hf hp
    have hs := run_stays hi hrw (.readPage f p) nofun hf' (by rw [← pinOf_of_find hf', hR.ledger]; omega)
    exact ⟨hs.find, hs.frame.trans hb⟩

/-- A clean `unPinPage` of a page the handle holds succeeds; the handle holds one
pin fewer on it. -/
theorem unPinPage (hR : Reading w₀ g u₁ u₂ held w) {f : FileId} {p : Int} (hh : 0 < held (some f, p)) :
    ∃ w' : World, w.unPinPage (some f) p false = (.OK, w') ∧
      Reading w₀ g u₁ u₂ (fun k => held k - onePin (some f, p) k) w' := by
  have hrw : w.io.ReadWriteOk := hR.io ▸ hR.rw
  have hi := hR.content.inv
  have hpos : 0 < pinOf w.pool (some f, p) := by rw [hR.ledger]; omega
  obtain ⟨j, hf⟩ : ∃ j : Nat, w.pool.hashTable.find (some f, p) = some (j : Int) := by
    cases h : w.pool.hashTable.find (some f, p) with
    | none => rw [pinOf_of_find_none h] at hpos; omega
    | some i => obtain ⟨j, rfl, -⟩ := hi.find_frame h; exact ⟨j, rfl⟩
  have hu := unPinPage_held hi hf (by rwa [← pinOf_of_find hf]) false
  have ha : Allowed (w.pool, g) (.unPinPage f p false) := by
    rintro ⟨ho, h1⟩
    have := hR.owed _ ho; rw [hR.ledger] at h1; omega
  have hc := run_content hi hR.content.clean hR.content.owed hrw (.unPinPage f p false) ha
  simp only [run_unPinPage, hu, Ghost.after_unPinPage_false] at hc
  refine ⟨{ w with pool := w.pool.unpinned j false }, by rw [World.unPinPage_some, hu], hR.io, hR.rw, hR.db,
    hR.numBufs, ⟨?_, hc.1, hc.2.1⟩,
    hR.owed, fun k hk => ?_, fun k => ?_, hR.lt₁, hR.lt₂,
    hR.budget₁.unpinned hi (hR.numBufs ▸ hR.lt₁) hf false,
    hR.budget₂.unpinned hi (hR.numBufs ▸ hR.lt₂) hf false, hR.stay⟩
  · simpa [hu] using unPinPage_inv hi f p false
  · rw [hc.2.2 k hk, hR.logical k hk]
  · have := run_pinOf hi hrw (.unPinPage f p false) (fun _ _ h => by cases h) k
    simp only [run_unPinPage, hu, pinDelta, if_true, hR.ledger k] at this
    show pinOf _ k = _
    unfold onePin
    by_cases hk : k = (some f, p) <;> simp only [hk, if_true, if_false] at this ⊢ <;> omega

/-- `unPinPage` moves no page. -/
theorem hashTable_unPinPage (hR : Reading w₀ g u₁ u₂ held w) {f : FileId} {p : Int} {d : Bool} {st : Status}
    {w' : World} (h : w.unPinPage (some f) p d = (st, w')) : w'.pool.hashTable = w.pool.hashTable := by
  obtain ⟨-, rfl⟩ := Prod.mk.inj ((World.unPinPage_some w f p d).symm.trans h)
  exact unPinPage_hashTable hR.content.inv f p d

/-- A page the handle holds keeps its frame over a `readPage`. -/
theorem find_readPage (hR : Reading w₀ g u₁ u₂ held w) {k : Key} {i : Nat} (hk : 0 < held k)
    (hf : w.pool.hashTable.find k = some (i : Int)) {f : FileId} {q : Int} {r : Except Status Int} {w' : World}
    (h : w.readPage (some f) q = (r, w')) : w'.pool.hashTable.find k = some (i : Int) := by
  obtain ⟨-, rfl⟩ := Prod.mk.inj ((World.readPage_some w f q).symm.trans h)
  have hp : 0 < (w.pool.bufTable i).pinCnt := by rw [← pinOf_of_find hf, hR.ledger]; omega
  simpa using (run_stays hR.content.inv (hR.io ▸ hR.rw) (.readPage f q) nofun hf hp).find

end Reading

end Minirel
