import Minirel.Lts

/-!
# Frame descriptors, the buffer hash table and the DB layer's answers

`src/stage4/heapfile.C` (the `buf.C` part, lines 650-1052) implements the
buffer manager over three collaborators that are not in the repository:

* `BufDesc` (declared in `buf.h`): the per-frame metadata, with its helpers
  `Clear` and `Set`;
* `BufHashTbl` (`bufHash.C`): the map `(File*, pageNo) → frameNo`;
* the DB layer (`db.C`): `File::readPage`, `writePage`, `allocatePage`,
  `disposePage`.

The first two are modelled from the spec (§3 "Frame Descriptor", §4.1, §4.2).
The DB layer is an oracle: `FileAnswers` gives the status of every call one
buffer-manager operation makes, so a theorem quantified over `FileAnswers` covers
every pattern of I/O success and failure.

A `File*` is a `FileId`; a descriptor's `file` is `none` for NULL. Hash keys
and disk pages are indexed by the descriptor's `(file, pageNo)` pair, `Key`.
-/
namespace Minirel

/-- The status codes of `error.h`, as far as the spec's taxonomy (§6) lists them. -/
inductive Status where
  | OK | FILEEXISTS | FILEEOF | BUFFEREXCEEDED | PAGENOTPINNED | PAGEPINNED
  | HASHNOTFOUND | HASHTBLERROR | UNIXERR | BADPAGENO | BADRID | BADSCANPARM
  | BADSCANID | BADBUFFER | INVALIDRECLEN | NOSPACE | ENDOFPAGE | NORECORDS
  | BADFILE | INSUFMEM | ATTRTYPEMISMATCH | ATTRNOTFOUND | ATTRTOOLONG | BADCATPARM
  deriving DecidableEq, Repr, Inhabited

/-- A `File*` handed out by `db.openFile`. -/
abbrev FileId := Nat

/-- `(file, pageNo)`, with `none` for a NULL `File*`. -/
abbrev Key := Option FileId × Int

/-- A frame descriptor. `frameNo` is left out: no modelled function reads it. -/
structure BufDesc where
  file : Option FileId
  pageNo : Int
  pinCnt : Nat
  dirty : Bool
  valid : Bool
  refbit : Bool
  deriving DecidableEq, Repr

namespace BufDesc

def key (d : BufDesc) : Key := (d.file, d.pageNo)

/-- The descriptor the constructor's `memset(bufTable, 0, ...)` leaves. -/
def zero : BufDesc :=
  { file := none, pageNo := 0, pinCnt := 0, dirty := false, valid := false, refbit := false }

/-- Modelled from the spec: `BufDesc::Clear` (in `buf.h`, not in the repository)
"resets the descriptor (valid=false, pinCnt=0, dirty=false, refbit=false)"; the
reset descriptor names no page (NULL file, page -1, as `flushFile` writes by hand). -/
def clear : BufDesc :=
  { file := none, pageNo := -1, pinCnt := 0, dirty := false, valid := false, refbit := false }

/-- Modelled from the spec: `BufDesc::Set(file, pageNo)` (in `buf.h`) "establishes
valid=true, pinCnt=1, refbit=true, dirty=false" for the new identity. -/
def set (f : FileId) (p : Int) : BufDesc :=
  { file := some f, pageNo := p, pinCnt := 1, dirty := false, valid := true, refbit := true }

@[simp] theorem key_set (f : FileId) (p : Int) : (set f p).key = (some f, p) := rfl

end BufDesc

/-- Modelled from the spec: `BufHashTbl` (§4.1, `bufHash.C` is not in the
repository) is a finite map from `(file, pageNo)` to a frame number; `insert`
fails with HASHTBLERROR on a duplicate key, `lookup` and `remove` fail with
HASHNOTFOUND on a miss. Frame numbers are the C++ `int`s the callers pass. -/
structure BufHashTbl where
  find : Key → Option Int

namespace BufHashTbl

def empty : BufHashTbl := ⟨fun _ => none⟩

def lookup (h : BufHashTbl) (k : Key) : Except Status Int :=
  match h.find k with
  | some i => .ok i
  | none => .error .HASHNOTFOUND

def insert (h : BufHashTbl) (k : Key) (i : Int) : Except Status BufHashTbl :=
  match h.find k with
  | some _ => .error .HASHTBLERROR
  | none => .ok ⟨Function.update h.find k (some i)⟩

def remove (h : BufHashTbl) (k : Key) : Except Status BufHashTbl :=
  match h.find k with
  | some _ => .ok ⟨Function.update h.find k none⟩
  | none => .error .HASHNOTFOUND

theorem lookup_eq_ok {h : BufHashTbl} {k : Key} {i : Int} :
    h.lookup k = .ok i ↔ h.find k = some i := by
  unfold lookup; cases h.find k <;> simp

theorem lookup_eq_error {h : BufHashTbl} {k : Key} {e : Status} :
    h.lookup k = .error e ↔ h.find k = none ∧ e = .HASHNOTFOUND := by
  unfold lookup; cases h.find k <;> simp [Eq.comm (a := e)]

theorem insert_eq_ok {h h' : BufHashTbl} {k : Key} {i : Int} :
    h.insert k i = .ok h' ↔ h.find k = none ∧ h' = ⟨Function.update h.find k (some i)⟩ := by
  unfold insert; cases h.find k <;> simp [Eq.comm (a := h')]

theorem remove_eq_ok {h h' : BufHashTbl} {k : Key} :
    h.remove k = .ok h' ↔ (h.find k).isSome ∧ h' = ⟨Function.update h.find k none⟩ := by
  unfold remove; cases h.find k <;> simp [Eq.comm (a := h')]

theorem remove_eq_error {h : BufHashTbl} {k : Key} {e : Status} :
    h.remove k = .error e ↔ h.find k = none ∧ e = .HASHNOTFOUND := by
  unfold remove; cases h.find k <;> simp [Eq.comm (a := e)]

end BufHashTbl

/-- What the DB layer answers to the calls of one buffer-manager operation:
the status of `readPage`/`writePage`/`disposePage` of each page, and the status
and page number `allocatePage` returns for a file. -/
structure FileAnswers where
  readPage : Key → Status
  writePage : Key → Status
  allocatePage : FileId → Status × Int
  disposePage : Key → Status

/-- Every file read and write succeeds. -/
structure FileAnswers.ReadWriteOk (io : FileAnswers) : Prop where
  read : ∀ k, io.readPage k = .OK
  write : ∀ k, io.writePage k = .OK

end Minirel
