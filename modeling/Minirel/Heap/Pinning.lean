import Minirel.Heap.Reading

/-!
# A handle's pins, whatever it writes

`Reading` (`Minirel.Heap.Reading`) follows a handle that only reads, with the
bytes of every page. A handle that also writes through its frames, or that
`createHeapFile` runs, is followed here by its pins alone.

* `World.Sound w`: the pool keeps its invariant and every file read and write
  succeeds. `Sound.allocPage_ok`, `Sound.allocPage_error`, `Sound.readPage_ok`,
  `Sound.readPage_error`: an `allocPage` or a `readPage` adds one pin on its page
  when it succeeds and none when it fails; `Sound.unPinPage`: unpinning a pinned
  page succeeds and takes one pin off it; a write through a frame changes no pin.
* `Pinning w₀ u₁ u₂ held w`: a sound pool whose pins are those of `w₀` plus the
  handle's (`held`), with two frames `u₁`, `u₂` that carry no pins but the
  handle's. `Pinning.readPage`: while the handle holds pins on one page at most,
  a `readPage` succeeds and adds one pin; `Pinning.unPinPage`: unpinning a page
  the handle holds succeeds and takes one off.
-/
namespace Minirel

open BufMgr

/-- A `BufMgr::allocPage` that succeeds hands out the page the DB layer allocated. -/
theorem BufMgr.allocPage_pageNo {P : Type} {s : BufMgr P} {io : FileAnswers} (hi : Inv s)
    (hw : ∀ k, io.writePage k = .OK) {f : FileId} {q : Int} {v : Nat} (h : (allocPage io s f).1 = .ok (q, v)) :
    q = (io.allocatePage f).2 := by
  rcases allocPage_cases hi hw f with ⟨-, ha⟩ | ⟨-, ⟨-, ha⟩ | ⟨v', -, ⟨-, ha⟩ | ⟨-, ha⟩⟩⟩ <;> rw [ha] at h <;> cases h
  rfl

/-- A world whose pool keeps its invariant and whose file reads and writes succeed. -/
structure World.Sound (w : World) : Prop where
  inv : Inv w.pool
  rw : w.io.ReadWriteOk

namespace World.Sound

variable {w w' : World}

theorem setFrame (hw : w.Sound) (i : Int) (img : Img) : (w.setFrame i img).Sound :=
  ⟨⟨hw.inv.hand_lt, hw.inv.hash_iff, hw.inv.invalid_clear⟩, hw.rw⟩

/-- A successful `allocPage` for file `f` adds one pin, on the new page. -/
theorem allocPage_ok (hw : w.Sound) {f : FileId} {q : Int} {v : Nat} (h : w.allocPage (some f) = (.ok (q, v), w')) :
    w'.Sound ∧ ∀ k, pinOf w'.pool k = pinOf w.pool k + onePin (some f, q) k := by
  obtain ⟨hr, rfl⟩ := Prod.mk.inj h
  refine ⟨⟨allocPage_inv _ hw.inv f, hw.rw⟩, fun k => ?_⟩
  have e := run_pinOf hw.inv (⟨hw.rw.read, hw.rw.write⟩ : w.answers.ReadWriteOk) (.allocPage f) nofun k
  have hq : q = (w.answers.allocatePage f).2 :=
    BufMgr.allocPage_pageNo hw.inv (show ∀ k, w.answers.writePage k = .OK from hw.rw.write) hr
  simp only [run_allocPage, pinDelta, hr, statusOf, if_true, ← hq] at e
  show pinOf _ k = _
  unfold onePin
  by_cases hk : k = (some f, q) <;> simp only [hk, if_true, if_false] at e ⊢ <;> omega

/-- A failed `allocPage` changes no pin. -/
theorem allocPage_error (hw : w.Sound) {f : FileId} {e : Status} (h : w.allocPage (some f) = (.error e, w')) :
    w'.Sound ∧ pinOf w'.pool = pinOf w.pool := by
  obtain ⟨hr, rfl⟩ := Prod.mk.inj h
  refine ⟨⟨allocPage_inv _ hw.inv f, hw.rw⟩, ?_⟩
  show pinOf (BufMgr.allocPage w.answers w.pool f).2 = _
  rcases allocPage_cases hw.inv (show ∀ k, w.answers.writePage k = .OK from hw.rw.write) f with
    ⟨-, ha⟩ | ⟨-, ⟨-, ha⟩ | ⟨v, -, ⟨-, ha⟩ | ⟨-, ha⟩⟩⟩ <;> rw [ha] at hr ⊢ <;>
    first | exact allocBuf_pinOf _ hw.inv | cases hr

/-- A successful `readPage` of file `f` adds one pin, on the page read. -/
theorem readPage_ok (hw : w.Sound) {f : FileId} {q : Int} {j : Nat} (h : (w.readPage (some f) q).1 = .ok j) :
    (w.readPage (some f) q).2.Sound ∧
      ∀ k, pinOf (w.readPage (some f) q).2.pool k = pinOf w.pool k + onePin (some f, q) k :=
  ⟨⟨by simpa using run_inv hw.inv hw.rw.write (.readPage f q), hw.rw⟩, pinOf_readPage hw.inv hw.rw h⟩

/-- A failed `readPage` changes no pin. -/
theorem readPage_error (hw : w.Sound) {f : FileId} {q : Int} {e : Status} (he : e ≠ .OK)
    (h : w.readPage (some f) q = (.error e, w')) : w'.Sound ∧ pinOf w'.pool = pinOf w.pool := by
  obtain ⟨hr, rfl⟩ := Prod.mk.inj h
  refine ⟨⟨by simpa using run_inv hw.inv hw.rw.write (.readPage f q), hw.rw⟩, funext fun k => ?_⟩
  have e := run_pinOf hw.inv hw.rw (.readPage f q) nofun k
  simp only [run_readPage, pinDelta, hr, statusOf, he, if_false, add_zero, Nat.cast_inj] at e
  exact e

/-- Unpinning a pinned page of file `f` succeeds and takes one pin off it. -/
theorem unPinPage (hw : w.Sound) {f : FileId} {q : Int} (hp : 0 < pinOf w.pool (some f, q)) (d : Bool) :
    ∃ w', w.unPinPage (some f) q d = (.OK, w') ∧ w'.Sound ∧
      ∀ k, pinOf w'.pool k + onePin (some f, q) k = pinOf w.pool k := by
  obtain ⟨j, hf, hj⟩ := find_of_pinOf_pos hw.inv hp
  have hu := unPinPage_held hw.inv hf hj d
  refine ⟨{ w with pool := w.pool.unpinned j d }, by rw [World.unPinPage_some, hu],
    ⟨by simpa [hu] using unPinPage_inv hw.inv f q d, hw.rw⟩, pinOf_unpinned hw.inv hf hj d⟩

end World.Sound

/-- A handle's session with the pool begun at `w₀`, as far as pins go: the pool
is sound, its pins are those of `w₀` plus the handle's (`held`), and the frames
`u₁` and `u₂` carry no pins but the handle's. -/
structure Pinning (w₀ : World) (u₁ u₂ : Nat) (held : Key → Nat) (w : World) : Prop where
  sound : w.Sound
  ledger : ∀ k, pinOf w.pool k = pinOf w₀.pool k + held k
  ne : u₁ ≠ u₂
  lt₁ : u₁ < w.pool.numBufs
  lt₂ : u₂ < w.pool.numBufs
  budget₁ : Budget held w.pool u₁
  budget₂ : Budget held w.pool u₂

namespace Pinning

variable {w₀ w : World} {u₁ u₂ : Nat} {held : Key → Nat}

/-- The session's start: two distinct unpinned frames, no pins held. -/
theorem start (hw : w₀.Sound) (hne : u₁ ≠ u₂) (h₁ : u₁ < w₀.pool.numBufs) (h₂ : u₂ < w₀.pool.numBufs)
    (hp₁ : (w₀.pool.bufTable u₁).pinCnt = 0) (hp₂ : (w₀.pool.bufTable u₂).pinCnt = 0) :
    Pinning w₀ u₁ u₂ (fun _ => 0) w₀ :=
  ⟨hw, fun _ => rfl, hne, h₁, h₂, fun _ => Nat.le_of_eq hp₁, fun _ => Nat.le_of_eq hp₂⟩

theorem congr {held' : Key → Nat} (h : Pinning w₀ u₁ u₂ held w) (e : ∀ k, held k = held' k) :
    Pinning w₀ u₁ u₂ held' w :=
  funext e ▸ h

/-- A write through a frame changes no pin. -/
theorem setFrame (h : Pinning w₀ u₁ u₂ held w) (i : Int) (img : Img) : Pinning w₀ u₁ u₂ held (w.setFrame i img) :=
  ⟨h.sound.setFrame i img, h.ledger, h.ne, h.lt₁, h.lt₂, h.budget₁, h.budget₂⟩

/-- While the handle holds pins on one page at most, a `readPage` succeeds and
the handle holds one more pin on the page read. -/
theorem readPage (h : Pinning w₀ u₁ u₂ held w) (f : FileId) (q : Int) (k₀ : Key) (hk : ∀ k, held k ≤ onePin k₀ k) :
    ∃ (j : Nat) (w' : World), w.readPage (some f) q = (.ok j, w') ∧
      Pinning w₀ u₁ u₂ (fun k => held k + onePin (some f, q) k) w' := by
  have hi := h.sound.inv
  have hrw := h.sound.rw
  have hus : ∀ u ∈ [u₁, u₂], u < w.pool.numBufs ∧ Budget held w.pool u := by
    simp only [List.mem_cons, List.mem_singleton, List.not_mem_nil, or_false]
    rintro u (rfl | rfl)
    · exact ⟨h.lt₁, h.budget₁⟩
    · exact ⟨h.lt₂, h.budget₂⟩
  have hks : ∀ k, 0 < held k → k ∈ [k₀] := fun k hp => by
    have := hk k; unfold onePin at this; split at this
    · exact List.mem_singleton.2 ‹_›
    · omega
  obtain ⟨j, hj⟩ := readPage_ok hi hrw f q (.inr (Budget.free hi (by simp [h.ne]) hus hks Nat.one_lt_two))
  refine ⟨j, { w with pool := (BufMgr.readPage w.io w.pool f q).2 }, by rw [World.readPage_some, hj],
    ⟨⟨?_, hrw⟩, fun k => ?_, h.ne, ?_, ?_,
    budget_readPage hi hrw f q h.budget₁, budget_readPage hi hrw f q h.budget₂⟩⟩
  · simpa using run_inv hi hrw.write (.readPage f q)
  · rw [pinOf_readPage hi hrw hj, h.ledger, Nat.add_assoc]; rfl
  · rw [readPage_numBufs hi hrw]; exact h.lt₁
  · rw [readPage_numBufs hi hrw]; exact h.lt₂

/-- Unpinning a page the handle holds succeeds; the handle holds one pin fewer on it. -/
theorem unPinPage (h : Pinning w₀ u₁ u₂ held w) {f : FileId} {q : Int} (hh : 0 < held (some f, q)) (d : Bool) :
    ∃ w' : World, w.unPinPage (some f) q d = (.OK, w') ∧
      Pinning w₀ u₁ u₂ (fun k => held k - onePin (some f, q) k) w' := by
  have hi := h.sound.inv
  obtain ⟨j, hf, hj⟩ := find_of_pinOf_pos hi (by rw [h.ledger]; omega : 0 < pinOf w.pool (some f, q))
  have hu := unPinPage_held hi hf hj d
  refine ⟨{ w with pool := w.pool.unpinned j d }, by rw [World.unPinPage_some, hu],
    ⟨⟨by simpa [hu] using unPinPage_inv hi f q d, h.sound.rw⟩,
    fun k => ?_, h.ne, h.lt₁, h.lt₂, h.budget₁.unpinned hi h.lt₁ hf d, h.budget₂.unpinned hi h.lt₂ hf d⟩⟩
  have e := pinOf_unpinned hi hf hj d k
  have hk := h.ledger k
  have hle : onePin (some f, q) k ≤ held k := by
    unfold onePin; split
    · next hk => rw [hk]; exact hh
    · exact Nat.zero_le _
  unfold onePin at e hle ⊢
  show pinOf (w.pool.unpinned j d) k = _
  omega

end Pinning

end Minirel
