import VlsOs.Net.Receive

/-! The response parser of the HTTP client (`http_client_parse_response` of `net/http_client.c`).

    One index `i` goes through the buffer: to the first space, over the status code, to the end of
    the status line, over the header lines, and on to the body. Each `while` loop has the bytes up to
    `buflen` to go, so it takes at most that many turns.

        HTTP/1.1 200 OK␍␊Content-Length: 2␍␊␍␊Hi
                ▲   ▲     ▲                ▲ ▲
              space code  header lines     │ body
                                           empty line

    The events are what the function does to its buffers. -/

namespace VlsOs.Net.Http
open Patterns Patterns.Trace VlsOs.Memory VlsOs.Libc

/-- `http_response_t`. -/
structure HttpResponse where
  statusCode : UInt16
  contentLength : UInt32
  body : UInt32
  bodyLen : UInt16

/-- The response after the `memset` of `http_client_get`. -/
def clearedResponse : HttpResponse := ⟨0, 0, null, 0⟩

/-- What the parser does, in order. -/
inductive ParseEvent
  /-- `buf[offset]` is read. -/
  | read (offset : ℕ)
  /-- `memcmp` is called on `count` bytes at `buf + offset`. -/
  | compare (offset count : ℕ)
  /-- `len_str[j]` is written. -/
  | digit (j : ℕ)
  | alloc (size : UInt32)
  /-- `count` bytes are copied from `buf + offset` to the body. -/
  | copy (offset count : ℕ)
  /-- The byte of the body at `offset` is cleared. -/
  | terminate (offset : ℕ)
  deriving DecidableEq

/-- The text `"Content-Length: "`. -/
def contentLengthName : List UInt8 :=
  [67, 111, 110, 116, 101, 110, 116, 45, 76, 101, 110, 103, 116, 104, 58, 32]

section
variable (buf : ℕ → UInt8)

def skipLoop (c : UInt8) : ℕ → ℕ → Traced ParseEvent ℕ
  | 0, i => return i
  | left + 1, i => do
    emit (.read i)
    if buf i ≠ c then skipLoop c left (i + 1) else return i

/-- `while (i < buflen && buf[i] != c) i++`. -/
def skipTo (buflen : ℕ) (c : UInt8) (i : ℕ) : Traced ParseEvent ℕ := skipLoop buf c (buflen - i) i

/-- The loop that fills `len_str`: the digits from `i` on, as many as there is room for. -/
def digitLoop (buflen : ℕ) : ℕ → ℕ → Traced ParseEvent (List UInt8)
  | 0, _ => return []
  | room + 1, i =>
    if i < buflen then do
      emit (.read i)
      if 48 ≤ buf i ∧ buf i ≤ 57 then do
        emit (.digit (14 - room))
        let digits ← digitLoop buflen room (i + 1)
        return buf i :: digits
      else return []
    else return []

/-- The check for a `Content-Length` header at `i`: where it leaves the index, and the length. -/
def readLength (buflen i : ℕ) (contentLength : UInt32) : Traced ParseEvent (ℕ × UInt32) :=
  if i + 16 ≤ buflen then do
    emit (.compare i 16)
    if memcmp (Blocks.stretch buf i 16) contentLengthName = 0 then do
      let digits ← digitLoop buf buflen 15 (i + 16)
      emit (.digit digits.length)
      return (i + 16 + digits.length, (atoi (digits ++ [0])).toUInt32)
    else return (i, contentLength)
  else return (i, contentLength)

/-- The body of the header loop. -/
def headerLine (buflen i : ℕ) (contentLength : UInt32) : Traced ParseEvent (ℕ × UInt32) := do
  let r ← readLength buf buflen i contentLength
  let i ← skipTo buf buflen 10 r.1
  return (if i < buflen then i + 1 else i, r.2)

/-- The header loop. A turn moves `i` on, so `buflen` turns are enough. -/
def headerLoop (buflen : ℕ) : ℕ → ℕ → UInt32 → Traced ParseEvent (ℕ × UInt32)
  | 0, i, contentLength => return (i, contentLength)
  | turns + 1, i, contentLength =>
    if i < buflen then do
      emit (.read i)
      if buf i ≠ 10 then do
        let r ← headerLine buf buflen i contentLength
        headerLoop buflen turns r.1 r.2
      else return (i, contentLength)
    else return (i, contentLength)

/-- The end of the function: the bytes from `i` on become the body. -/
def takeBody (s : NetState) (buflen i : ℕ) (resp : HttpResponse) :
    Traced ParseEvent (ℤ × HttpResponse × NetState) :=
  let size := UInt32.ofNat (buflen - i + 1)
  let block := malloc s.heap size
  let resp := { resp with body := block.1 }
  if block.1 = null then return (-1, resp, { s with heap := block.2 })
  else do
    emit (.alloc size)
    let bodyLen := UInt16.ofNat (buflen - i)
    let resp := { resp with bodyLen := bodyLen }
    emit (.copy i bodyLen.toNat)
    let mem := memcpy s.mem block.1 (fun k => buf (i + k)) bodyLen.toNat
    emit (.terminate bodyLen.toNat)
    let mem := Function.update mem (block.1 + bodyLen.toUInt32) 0
    return (0, resp, { s with heap := block.2, mem := mem })

def httpClientParseResponse (s : NetState) (buflen : UInt16) (resp : HttpResponse) :
    Traced ParseEvent (ℤ × HttpResponse × NetState) :=
  let buflen := buflen.toNat
  if buflen < 12 then return (-1, resp, s)
  else do
    let i ← skipTo buf buflen 32 0
    if i ≥ buflen then return (-1, resp, s)
    else
      let i := i + 1
      if i + 3 > buflen then return (-1, resp, s)
      else do
        emit (.read i)
        emit (.read (i + 1))
        emit (.read (i + 2))
        let codeStr := [buf i, buf (i + 1), buf (i + 2), 0]
        let resp := { resp with statusCode := (atoi codeStr).toUInt32.toUInt16 }
        let i ← skipTo buf buflen 10 (i + 3)
        if i ≥ buflen then return (-1, resp, s)
        else do
          let r ← headerLoop buf buflen buflen (i + 1) 0
          let resp := { resp with contentLength := r.2 }
          let i := if r.1 < buflen then r.1 + 1 else r.1
          takeBody buf s buflen i resp

end

/-! ### The loops -/

section
variable {buf : ℕ → UInt8} {buflen : ℕ}

theorem skipTo_of_lt {c : UInt8} {i : ℕ} (hi : i < buflen) :
    (skipTo buf buflen c i).val = if buf i ≠ c then (skipTo buf buflen c (i + 1)).val else i := by
  obtain ⟨left, hleft⟩ : ∃ left, buflen - i = left + 1 := ⟨buflen - i - 1, by omega⟩
  have hnext : buflen - (i + 1) = left := by omega
  rw [skipTo, skipTo, hleft, hnext, skipLoop, val_bind]
  split <;> rfl

/-- MONOTONE: a skip goes forward, and not beyond the buffer. -/
theorem skipTo_bounds (c : UInt8) {i : ℕ} (hi : i ≤ buflen) :
    i ≤ (skipTo buf buflen c i).val ∧ (skipTo buf buflen c i).val ≤ buflen := by
  obtain ⟨left, hleft⟩ := Nat.exists_eq_add_of_le hi
  rw [skipTo, hleft, Nat.add_sub_cancel_left]
  clear hi hleft
  induction left generalizing i with
  | zero => exact ⟨le_rfl, le_rfl⟩
  | succ left ih =>
    rw [skipLoop, val_bind]
    split
    · have hrest := ih (i := i + 1)
      omega
    · exact ⟨le_rfl, by simp⟩

/-- SPEC of a skip: it stops at the first `c`. -/
theorem skipTo_val {c : UInt8} {i j : ℕ} (hij : i ≤ j) (hj : j < buflen)
    (hne : ∀ k, i ≤ k → k < j → buf k ≠ c) (hc : buf j = c) : (skipTo buf buflen c i).val = j := by
  obtain ⟨d, rfl⟩ := Nat.exists_eq_add_of_le hij
  clear hij
  induction d generalizing i with
  | zero =>
    rw [Nat.add_zero] at hj hc ⊢
    rw [skipTo_of_lt hj, if_neg (not_not.mpr hc)]
  | succ d ih =>
    have hshift : i + (d + 1) = i + 1 + d := by omega
    rw [hshift] at hj hne hc ⊢
    rw [skipTo_of_lt (by omega), if_pos (hne i le_rfl (by omega))]
    exact ih hj (fun k hk => hne k (by omega)) hc

/-- SPEC of the digits that are read from text that ends before the buffer does. -/
theorem digitLoop_val {l : List UInt8} {room i : ℕ} (hl : Blocks.stretch buf i l.length = l)
    (hend : isdigit (buf (i + l.length)) = false) (hin : i + l.length < buflen) :
    (digitLoop buf buflen room i).val = (l.takeWhile isdigit).take room := by
  induction room generalizing i l with
  | zero => simp [digitLoop]
  | succ room ih =>
    rw [digitLoop, if_pos (by omega), val_bind]
    have hdigit : (48 ≤ buf i ∧ buf i ≤ 57) ↔ isdigit (buf i) = true := by simp [isdigit]
    simp only [hdigit]
    cases l with
    | nil =>
      have hfirst : isdigit (buf i) = false := hend
      simp [hfirst]
    | cons a l =>
      rw [List.length_cons] at hl hend hin
      rw [Blocks.stretch_succ, List.cons.injEq] at hl
      have hshift : i + (l.length + 1) = i + 1 + l.length := by omega
      rw [hshift] at hend hin
      rw [hl.1]
      by_cases ha : isdigit a = true
      · rw [if_pos ha, val_bind, val_bind, ih hl.2 hend hin, List.takeWhile_cons_of_pos ha,
          List.take_succ_cons]
        rfl
      · rw [if_neg ha, List.takeWhile_cons_of_neg ha, List.take_nil]
        rfl

/-- MONOTONE: the check for a length goes forward, … -/
theorem le_readLength (i : ℕ) (contentLength : UInt32) :
    i ≤ (readLength buf buflen i contentLength).val.1 := by
  unfold readLength
  split
  · rw [val_bind]
    split
    · rw [val_bind, val_bind]
      change i ≤ i + 16 + _
      omega
    · exact le_rfl
  · exact le_rfl

/-- … and the rest of the line takes the index at least one byte further. -/
theorem lt_headerLine {i : ℕ} (hi : i < buflen) (contentLength : UInt32) :
    i < (headerLine buf buflen i contentLength).val.1 := by
  have hcheck : i ≤ (readLength buf buflen i contentLength).val.1 := le_readLength i contentLength
  rw [headerLine, val_bind, val_bind, val_pure]
  generalize (readLength buf buflen i contentLength).val = r at hcheck ⊢
  rcases Nat.le_total r.1 buflen with hle | hle
  · have hskip : r.1 ≤ (skipTo buf buflen 10 r.1).val := (skipTo_bounds 10 hle).1
    dsimp only
    split <;> omega
  · have hnone : (skipTo buf buflen 10 r.1).val = r.1 := by
      rw [skipTo, Nat.sub_eq_zero_of_le hle]
      rfl
    rw [hnone]
    dsimp only
    split <;> omega

theorem le_headerLoop (turns : ℕ) {i : ℕ} (contentLength : UInt32) :
    i ≤ (headerLoop buf buflen turns i contentLength).val.1 := by
  induction turns generalizing i contentLength with
  | zero => exact le_rfl
  | succ turns ih =>
    rw [headerLoop]
    split
    · rename_i hi
      rw [val_bind]
      split
      · rw [val_bind]
        exact (lt_headerLine hi contentLength).le.trans (ih _)
      · exact le_rfl
    · exact le_rfl

end

end VlsOs.Net.Http
