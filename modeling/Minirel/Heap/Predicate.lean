import Minirel.Heap.Scan

/-!
# What `matchRec` compares (`src/stage4/heapfile.C:491-540`)

`matchRec` is `int` arithmetic twice: its guard `offset + length - 1 >=
rec.length`, and on an INTEGER attribute the difference `iattr - ifltr`. Both
wrap modulo 2^32 in the model (`tooShort`, `fieldDiff`). While neither
overflows, the guard rejects exactly the records too short for the field and
the comparison is the signed order of the field and the filter; near the ends
of the `int` range neither holds.

**Results.**
* `matchRec_integer`: on an INTEGER scan whose field lies inside the record,
  `matchRec` applies the operator to the sign of field minus filter, wrapped to
  32 bits; `matchRec_integer_of_fits`: when the difference is an `int`, that
  is `Operator.cmp`, the signed order.
* `matchRec_integer_wraps`: the field INT_MIN against the filter 1 under LT is
  rejected: the difference wraps to INT_MAX.
* `tooShort_iff`: while `offset + length` is an `int`, the guard rejects
  exactly the records shorter than `offset + length`.
* `tooShort_wraps`: with `offset` = 2^31 - 2 and the four bytes of an `int`,
  which `startScan` accepts, the guard's sum wraps and a four-byte record
  passes it: the comparison reads the field at `offset`, past the record.
-/
namespace Minirel

/-- `a op b` in signed order: what a comparison on an INTEGER attribute decides. -/
def Operator.cmp : Operator → Int → Int → Bool
  | .LT, a, b => decide (a < b)
  | .LTE, a, b => decide (a ≤ b)
  | .EQ, a, b => decide (a = b)
  | .GTE, a, b => decide (b ≤ a)
  | .GT, a, b => decide (b < a)
  | .NE, a, b => decide (a ≠ b)

/-- The operator on the sign of a difference is the order of its operands. -/
theorem Operator.holds_ofInt_sub (op : Operator) (a b : Int) : op.holds (Sign.ofInt (a - b)) = op.cmp a b := by
  rcases Int.lt_trichotomy a b with h | rfl | h
  · have h₁ : a - b < 0 := by omega
    have h₂ : ¬ b < a := by omega
    have h₃ : ¬ b ≤ a := by omega
    cases op <;> simp [Sign.ofInt, Operator.holds, Operator.cmp, h, h₁, h₂, h₃, Int.le_of_lt h, Int.ne_of_lt h]
  · cases op <;> simp [Sign.ofInt, Operator.holds, Operator.cmp]
  · have h₁ : ¬ a - b < 0 := by omega
    have h₂ : a - b ≠ 0 := by omega
    have h₃ : ¬ a < b := by omega
    have h₄ : ¬ a ≤ b := by omega
    cases op <;>
      simp [Sign.ofInt, Operator.holds, Operator.cmp, h, h₁, h₂, h₃, h₄, Int.le_of_lt h, Int.ne_of_gt h]

/-- Four bytes copied into an `int` give an `int`. -/
theorem int32_range (b : List UInt8) : -2 ^ 31 ≤ int32 b ∧ int32 b < 2 ^ 31 := by
  have h₁ := Int.le_bmod (x := (le32 b : Int)) (m := 2 ^ 32) (by decide)
  have h₂ := Int.bmod_lt (x := (le32 b : Int)) (m := 2 ^ 32) (by decide)
  unfold int32
  omega

/-- An `int` wraps to itself. -/
theorem bmod_of_fits {x : Int} (h₁ : -2 ^ 31 ≤ x) (h₂ : x < 2 ^ 31) : Int.bmod x (2 ^ 32) = x := by
  rw [Int.bmod_def]; split <;> omega

namespace HeapFileScan

/-! ## The guard -/

/-- While `offset + length` is an `int`, the guard rejects exactly the records
that end before the field does. -/
theorem tooShort_iff {s : HeapFileScan} (rec : Record) (ho : 0 ≤ s.offset) (hl : 1 ≤ s.length)
    (hfit : s.offset + s.length ≤ 2 ^ 31) : s.tooShort rec = decide ((rec.length : Int) < s.offset + s.length) := by
  unfold tooShort
  rw [bmod_of_fits (by omega) (by omega)]
  exact decide_eq_decide.2 (by omega)

/-- `offset` 2^31 - 2 and `length` 4 on an INTEGER attribute: the parameters
`startScan` accepts, and a record of four bytes. The guard computes
2^31 + 1, which wraps to -2^31 + 1, so it does not reject the record, and
`matchRec` compares the field at `offset`, although the record ends at byte 4. -/
theorem tooShort_wraps :
    let s : HeapFileScan :=
      { HeapFile.initial with
        offset := 2 ^ 31 - 2, length := 4, type := .INTEGER, filter := some [1, 0, 0, 0], op := .LT
        markedPageNo := -1, markedRec := NULLRID }
    let r : Record := ⟨[1, 2, 3, 4]⟩
    ScanParmOk s.offset s.length s.type ∧ (r.length : Int) < s.offset + s.length ∧ s.tooShort r = false ∧
      s.matchRec r = s.op.holds (fieldDiff s.type (r.data.drop s.offset.toNat) [1, 0, 0, 0] s.length.toNat) := by
  decide

/-! ## INTEGER attributes -/

/-- An INTEGER scan on a field inside the record compares the sign of the
32-bit difference of field and filter. -/
theorem matchRec_integer {s : HeapFileScan} {rec : Record} {fb : List UInt8} (hf : s.filter = some fb)
    (ht : s.type = .INTEGER) (hl : s.length = 4) (ho : 0 ≤ s.offset) (hin : s.offset + 4 ≤ rec.length)
    (hrec : (rec.length : Int) < 2 ^ 31) :
    s.matchRec rec =
      s.op.holds
        (Sign.ofInt (Int.bmod (int32 ((rec.data.drop s.offset.toNat).take 4) - int32 (fb.take 4)) (2 ^ 32))) := by
  have hs : s.tooShort rec = false := by
    rw [tooShort_iff rec ho (by omega) (by omega)]; simp only [decide_eq_false_iff_not]; omega
  simp only [matchRec, hf, hs, ht, hl, fieldDiff]
  rfl

/-- When the difference of field and filter is an `int`, an INTEGER scan
decides the signed order. -/
theorem matchRec_integer_of_fits {s : HeapFileScan} {rec : Record} {fb : List UInt8} (hf : s.filter = some fb)
    (ht : s.type = .INTEGER) (hl : s.length = 4) (ho : 0 ≤ s.offset) (hin : s.offset + 4 ≤ rec.length)
    (hrec : (rec.length : Int) < 2 ^ 31)
    (hfit : -2 ^ 31 ≤ int32 ((rec.data.drop s.offset.toNat).take 4) - int32 (fb.take 4) ∧
      int32 ((rec.data.drop s.offset.toNat).take 4) - int32 (fb.take 4) < 2 ^ 31) :
    s.matchRec rec = s.op.cmp (int32 ((rec.data.drop s.offset.toNat).take 4)) (int32 (fb.take 4)) := by
  rw [matchRec_integer hf ht hl ho hin hrec, bmod_of_fits hfit.1 hfit.2, Operator.holds_ofInt_sub]

/-- The field holds INT_MIN, the filter 1, the operator is LT: INT_MIN < 1,
but the difference wraps to INT_MAX and `matchRec` rejects the record. -/
theorem matchRec_integer_wraps :
    let s : HeapFileScan :=
      { HeapFile.initial with
        offset := 0, length := 4, type := .INTEGER, filter := some [1, 0, 0, 0], op := .LT
        markedPageNo := -1, markedRec := NULLRID }
    let r : Record := ⟨[0, 0, 0, 128]⟩
    int32 r.data = -2 ^ 31 ∧ int32 [1, 0, 0, 0] = 1 ∧ s.op.cmp (int32 r.data) 1 = true ∧
      s.matchRec r = false := by
  decide

end HeapFileScan

end Minirel
