import VlsOs.Net.HttpClient
import VlsOs.Net.Inside

/-! What the HTTP client makes of a standard response.

    A response is a status line, header lines and an empty line, each ended by CR LF, and the body.
    The parser ends the headers at a line that starts with LF. The empty line starts with CR, so it is
    skipped like a header, and the lines of the body are read as headers too.

        Content-Length: 2 ␍␊ │ ␍␊ │ Hi
        header               │ header, for the parser
                                  │ header, for the parser   -/

namespace VlsOs.Net.Http
open Patterns Patterns.Trace VlsOs.Memory VlsOs.Libc

/-! ### The format -/

def crlf : List UInt8 := [13, 10]

/-- A line has neither CR nor LF in it. -/
def IsLine (line : List UInt8) : Prop := 13 ∉ line ∧ 10 ∉ line

instance (line : List UInt8) : Decidable (IsLine line) := inferInstanceAs (Decidable (_ ∧ _))

/-- The lines, each with its end. -/
def ended (lines : List (List UInt8)) : List UInt8 := lines.flatMap (· ++ crlf)

structure Response where
  version : UInt8
  status : List UInt8
  reason : List UInt8
  headers : List (List UInt8)
  body : List UInt8

/-- The text `"HTTP/1."`. -/
def protocolName : List UInt8 := [72, 84, 84, 80, 47, 49, 46]

def Response.statusLine (r : Response) : List UInt8 :=
  protocolName ++ [r.version, 32] ++ r.status ++ [32] ++ r.reason

/-- The response up to its body. -/
def Response.head (r : Response) : List UInt8 := ended (r.statusLine :: (r.headers ++ [[]]))

def Response.bytes (r : Response) : List UInt8 := r.head ++ r.body

/-- The number of a line `"Content-Length: d"`. -/
def lengthValue (line : List UInt8) : Option ℕ :=
  let value := line.drop 16
  if contentLengthName <+: line ∧ value ≠ [] ∧ value.all isdigit then some (decimal value) else none

/-- The number in the `Content-Length` line, `0` if there is none. -/
def Response.contentLength (r : Response) : ℕ := (r.headers.filterMap lengthValue).headD 0

structure Response.Standard (r : Response) : Prop where
  version : isdigit r.version = true
  status_length : r.status.length = 3
  status_digits : ∀ c ∈ r.status, isdigit c = true
  reason : IsLine r.reason
  headers : ∀ line ∈ r.headers, IsLine line
  one_length : (r.headers.filterMap lengthValue).length ≤ 1
  length_lt : r.contentLength < 2 ^ 31
  size : r.bytes.length ≤ 2048

/-- The parser's answer to the response in `buf`. -/
def parsed (s : NetState) (buf : ℕ → UInt8) (resp : HttpResponse) (r : Response) :
    ℤ × HttpResponse × NetState :=
  (httpClientParseResponse buf s (UInt16.ofNat r.bytes.length) resp).val

/-- It returns `0`, with the status code, the length and the body of the response. -/
structure ParsesExactly (s : NetState) (buf : ℕ → UInt8) (resp : HttpResponse) (r : Response) :
    Prop where
  result : (parsed s buf resp r).1 = 0
  status : (parsed s buf resp r).2.1.statusCode.toNat = decimal r.status
  length : (parsed s buf resp r).2.1.contentLength.toNat = r.contentLength
  body : Blocks.stretch (cells (parsed s buf resp r).2.2.mem (parsed s buf resp r).2.1.body) 0
    (parsed s buf resp r).2.1.bodyLen.toNat = r.body

/-! ### One line -/

/-- The number that the parser reads in a line: that of the first 15 digits after the name. -/
def leadingNumber (line : List UInt8) : Option ℕ :=
  if contentLengthName <+: line then
    some (decimal (((line.drop 16).takeWhile isdigit).take 15))
  else none

section
variable {buf : ℕ → UInt8} {buflen : ℕ}

theorem ne_of_stretch {c : UInt8} {l : List UInt8} {i : ℕ} (hl : Blocks.stretch buf i l.length = l)
    (hc : c ∉ l) : ∀ k, i ≤ k → k < i + l.length → buf k ≠ c := by
  rintro k hik hk rfl
  refine hc ?_
  rw [← hl, Blocks.stretch]
  exact List.mem_map.mpr ⟨k - i, List.mem_range.mpr (by omega), by rw [Nat.add_sub_cancel' hik]⟩

/-- The bytes of a line with its end. -/
theorem stretch_line {line : List UInt8} {i : ℕ}
    (h : Blocks.stretch buf i (line ++ crlf).length = line ++ crlf) :
    Blocks.stretch buf i line.length = line ∧ buf (i + line.length) = 13 ∧
      buf (i + line.length + 1) = 10 := by
  obtain ⟨hline, hend⟩ := Blocks.stretch_eq_append h
  rw [crlf, List.length_cons, List.length_cons, List.length_nil, Blocks.stretch_succ,
    Blocks.stretch_succ, List.cons.injEq, List.cons.injEq] at hend
  exact ⟨hline, hend.1, hend.2.1⟩

/-- A skip from inside a line gets to its end. -/
theorem skipTo_line {line : List UInt8} {i j : ℕ} (hline : IsLine line)
    (h : Blocks.stretch buf i (line ++ crlf).length = line ++ crlf)
    (hin : i + (line ++ crlf).length ≤ buflen) (hij : i ≤ j) (hj : j ≤ i + line.length) :
    (skipTo buf buflen 10 j).val = i + line.length + 1 := by
  obtain ⟨htext, hcr, hlf⟩ := stretch_line h
  have hlen : (line ++ crlf).length = line.length + 2 := List.length_append
  refine skipTo_val (by omega) (by omega) (fun k hjk hk => ?_) hlf
  rcases Nat.lt_or_ge k (i + line.length) with hlt | hge
  · exact ne_of_stretch htext hline.2 k (by omega) hlt
  · obtain rfl : k = i + line.length := by omega
    rw [hcr]
    decide

/-- The comparison with the name looks at the line alone: the name has no CR in it. -/
theorem stretch_eq_name_iff {line : List UInt8} {i : ℕ}
    (h : Blocks.stretch buf i (line ++ crlf).length = line ++ crlf) :
    Blocks.stretch buf i 16 = contentLengthName ↔ contentLengthName <+: line := by
  obtain ⟨htext, hcr, -⟩ := stretch_line h
  constructor
  · intro hname
    rcases Nat.lt_or_ge line.length 16 with hlt | hge
    · have hno : (13 : UInt8) ∉ contentLengthName := by decide
      rw [← hname] at hno
      have hat := ne_of_stretch (l := Blocks.stretch buf i 16) (by rw [Blocks.length_stretch]) hno
        (i + line.length) (Nat.le_add_right ..) (by rw [Blocks.length_stretch]; omega)
      exact absurd hcr hat
    · have htake : line.take 16 = Blocks.stretch buf i 16 := by
        rw [← htext, Blocks.stretch_take, Nat.min_eq_left hge]
      rw [List.prefix_iff_eq_take]
      exact (htake.trans hname).symm
  · rintro ⟨rest, rfl⟩
    exact (Blocks.stretch_eq_append htext).1

theorem memcmp_name (i : ℕ) : memcmp (Blocks.stretch buf i 16) contentLengthName = 0 ↔
    Blocks.stretch buf i 16 = contentLengthName :=
  memcmp_eq_zero_iff (Blocks.length_stretch buf i 16)

theorem readLength_other {i : ℕ} (hname : Blocks.stretch buf i 16 ≠ contentLengthName)
    (contentLength : UInt32) :
    (readLength buf buflen i contentLength).val = (i, contentLength) := by
  rw [readLength]
  split
  · rw [val_bind, if_neg fun h => hname ((memcmp_name i).mp h)]
    rfl
  · rfl

theorem readLength_named {rest : List UInt8} {i : ℕ}
    (hname : Blocks.stretch buf i 16 = contentLengthName)
    (hrest : Blocks.stretch buf (i + 16) rest.length = rest) (hcr : buf (i + 16 + rest.length) = 13)
    (hin : i + 16 + rest.length < buflen) (contentLength : UInt32) :
    (readLength buf buflen i contentLength).val =
      (i + 16 + ((rest.takeWhile isdigit).take 15).length,
        UInt32.ofNat (decimal ((rest.takeWhile isdigit).take 15))) := by
  have hend : isdigit (buf (i + 16 + rest.length)) = false := by
    rw [hcr]
    rfl
  have hdigits : ∀ c ∈ (rest.takeWhile isdigit).take 15, isdigit c = true :=
    fun c hc => List.mem_takeWhile_imp (List.mem_of_mem_take hc)
  rw [readLength, if_pos (by omega), val_bind, if_pos ((memcmp_name i).mpr hname), val_bind, val_bind,
    val_pure, digitLoop_val hrest hend hin, atoi_digits hdigits]
  rfl

/-- LINE: a turn of the header loop goes over a line and its end, and takes its number. -/
theorem headerLine_val {line : List UInt8} {i : ℕ} (hline : IsLine line)
    (h : Blocks.stretch buf i (line ++ crlf).length = line ++ crlf)
    (hin : i + (line ++ crlf).length ≤ buflen) (contentLength : UInt32) :
    (headerLine buf buflen i contentLength).val =
      (i + (line ++ crlf).length, ((leadingNumber line).map UInt32.ofNat).getD contentLength) := by
  have hlen : (line ++ crlf).length = line.length + 2 := List.length_append
  have hcheck : i ≤ (readLength buf buflen i contentLength).val.1 ∧
      (readLength buf buflen i contentLength).val.1 ≤ i + line.length ∧
      (readLength buf buflen i contentLength).val.2 =
        ((leadingNumber line).map UInt32.ofNat).getD contentLength := by
    have hname := stretch_eq_name_iff h
    rw [leadingNumber]
    by_cases hstart : contentLengthName <+: line
    · obtain ⟨htext, hcr, -⟩ := stretch_line h
      rw [if_pos hstart]
      obtain ⟨rest, rfl⟩ := hstart
      have hsize : (contentLengthName ++ rest).length = 16 + rest.length := List.length_append
      rw [hsize, ← Nat.add_assoc] at hcr
      have hrest : Blocks.stretch buf (i + 16) rest.length = rest :=
        (Blocks.stretch_eq_append htext).2
      have htake : ((rest.takeWhile isdigit).take 15).length ≤ rest.length :=
        (List.length_take_le' ..).trans (List.takeWhile_sublist _).length_le
      have hdrop : (contentLengthName ++ rest).drop 16 = rest := rfl
      rw [readLength_named (hname.mpr (List.prefix_append ..)) hrest hcr (by omega), hdrop]
      exact ⟨by omega, by omega, rfl⟩
    · rw [readLength_other fun h => hstart (hname.mp h), if_neg hstart]
      exact ⟨le_rfl, Nat.le_add_right .., rfl⟩
  rw [headerLine, val_bind, val_bind, val_pure, skipTo_line hline h hin hcheck.1 hcheck.2.1, hcheck.2.2,
    if_pos (by omega), hlen, ← Nat.add_assoc]

/-! ### The lines -/

/-- LOOP: the header loop goes over any number of lines. -/
theorem headerLoop_lines {lines : List (List UInt8)} (hlines : ∀ line ∈ lines, IsLine line) :
    ∀ {turns i : ℕ} {contentLength : UInt32},
      Blocks.stretch buf i (ended lines).length = ended lines → i + (ended lines).length ≤ buflen →
      (headerLoop buf buflen (lines.length + turns) i contentLength).val =
        (headerLoop buf buflen turns (i + (ended lines).length)
          (((lines.filterMap leadingNumber).map UInt32.ofNat).getLastD contentLength)).val := by
  induction lines with
  | nil =>
    intro turns i contentLength _ _
    rw [List.length_nil, Nat.zero_add]
    rfl
  | cons line lines ih =>
    intro turns i contentLength h hin
    have hended : ended (line :: lines) = (line ++ crlf) ++ ended lines := List.flatMap_cons
    rw [hended] at h hin ⊢
    obtain ⟨hfirst, hrest⟩ := Blocks.stretch_eq_append h
    rw [List.length_append] at hin ⊢
    have hlen : (line ++ crlf).length = line.length + 2 := List.length_append
    have hstart : buf i ≠ 10 := by
      obtain ⟨htext, hcr, -⟩ := stretch_line hfirst
      rcases Nat.eq_zero_or_pos line.length with hempty | hpos
      · -- an empty line starts with the CR of its end
        rw [hempty, Nat.add_zero] at hcr
        rw [hcr]
        decide
      · exact ne_of_stretch htext (hlines line List.mem_cons_self).2 i le_rfl (by omega)
    have hturns : (line :: lines).length + turns = lines.length + turns + 1 := by
      rw [List.length_cons]
      omega
    rw [hturns, headerLoop, if_pos (by omega), val_bind, if_pos hstart, val_bind,
      headerLine_val (hlines line List.mem_cons_self) hfirst (by omega),
      ih (fun l hl => hlines l (List.mem_cons_of_mem _ hl)) hrest (by omega), Nat.add_assoc]
    cases hnumber : leadingNumber line with
    | none => rw [List.filterMap_cons_none hnumber, Option.map_none, Option.getD_none]
    | some n =>
      rw [List.filterMap_cons_some hnumber, List.map_cons, List.getLastD_cons, Option.map_some,
        Option.getD_some]

/-! ### The whole response -/

theorem takeBody_ok {s : NetState} {i : ℕ}
    (h : (malloc s.heap (UInt32.ofNat (buflen - i + 1))).1 ≠ null) (resp : HttpResponse) :
    (takeBody buf s buflen i resp).val.1 = 0 ∧
      (takeBody buf s buflen i resp).val.2.1 =
        { resp with
          body := (malloc s.heap (UInt32.ofNat (buflen - i + 1))).1
          bodyLen := UInt16.ofNat (buflen - i) } := by
  rw [takeBody]
  dsimp only
  rw [if_neg h]
  exact ⟨rfl, rfl⟩

/-- The body that the parser takes has what is left of the buffer. -/
theorem takeBody_bodyLen {s : NetState} {i : ℕ} {resp : HttpResponse}
    (h : (takeBody buf s buflen i resp).val.1 = 0) :
    (takeBody buf s buflen i resp).val.2.1.bodyLen = UInt16.ofNat (buflen - i) := by
  by_cases hblock : (malloc s.heap (UInt32.ofNat (buflen - i + 1))).1 = null
  · rw [takeBody] at h
    dsimp only at h
    rw [if_pos hblock] at h
    cases h
  · rw [(takeBody_ok hblock resp).2]

/-- The parser after the status line, if that has its code at 9 and its end at `e`. -/
theorem parse_after_status {n : UInt16} {e : ℕ} (hmin : 12 ≤ n.toNat)
    (hspace : (skipTo buf n.toNat 32 0).val = 8) (hline : (skipTo buf n.toNat 10 12).val = e)
    (he : e < n.toNat) (s : NetState) (resp : HttpResponse) :
    (httpClientParseResponse buf s n resp).val =
      let h := (headerLoop buf n.toNat n.toNat (e + 1) 0).val
      (takeBody buf s n.toNat (if h.1 < n.toNat then h.1 + 1 else h.1)
        { resp with
          statusCode := (atoi [buf 9, buf 10, buf 11, 0]).toUInt32.toUInt16
          contentLength := h.2 }).val := by
  rw [httpClientParseResponse]
  dsimp only
  rw [if_neg (by omega), val_bind, hspace, if_neg (by omega), if_neg (by omega), val_bind, val_bind,
    val_bind, val_bind, hline, if_neg (by omega), val_bind]

end

variable {buf : ℕ → UInt8} {r : Response}

theorem length_le_ended (lines : List (List UInt8)) : lines.length ≤ (ended lines).length := by
  induction lines with
  | nil => exact le_rfl
  | cons line lines ih =>
    have hended : ended (line :: lines) = line ++ crlf ++ ended lines := List.flatMap_cons
    have hlen : (line ++ crlf).length = line.length + 2 := List.length_append
    rw [hended, List.length_append, List.length_cons]
    omega

theorem Response.Standard.isLine_statusLine (hstd : r.Standard) : IsLine r.statusLine := by
  have hdigits (k : UInt8) (hk : isdigit k = false) : k ≠ r.version ∧ k ∉ r.status :=
    ⟨(ne_of_isdigit hstd.version hk).symm, fun h => ne_of_isdigit (hstd.status_digits k h) hk rfl⟩
  obtain ⟨hcr, hlf⟩ := hstd.reason
  constructor
  · simp [Response.statusLine, protocolName, hdigits 13 rfl, hcr]
  · simp [Response.statusLine, protocolName, hdigits 10 rfl, hlf]

/-- What the parser looks at in the status line. -/
theorem Response.Standard.status_bytes (hstd : r.Standard)
    (h : Blocks.stretch buf 0 r.statusLine.length = r.statusLine) :
    (∀ k, 0 ≤ k → k < 8 → buf k ≠ 32) ∧ buf 8 = 32 ∧ [buf 9, buf 10, buf 11] = r.status := by
  obtain ⟨a, b, c, hstatus⟩ := List.length_eq_three.mp hstd.status_length
  have hsplit : r.statusLine =
      (protocolName ++ [r.version]) ++ ([32, a, b, c] ++ (32 :: r.reason)) := by
    simp [Response.statusLine, hstatus]
  rw [hsplit] at h
  obtain ⟨hname, hrest⟩ := Blocks.stretch_eq_append h
  have hcode : [buf 8, buf 9, buf 10, buf 11] = [32, a, b, c] := (Blocks.stretch_eq_append hrest).1
  have hspace : (32 : UInt8) ∉ protocolName ++ [r.version] := by
    simp [protocolName, (ne_of_isdigit hstd.version (k := 32) rfl).symm]
  obtain ⟨hsep, hdigits⟩ := List.cons.inj hcode
  exact ⟨ne_of_stretch hname hspace, hsep, hdigits.trans hstatus.symm⟩

theorem Response.Standard.length_statusLine (hstd : r.Standard) :
    r.statusLine.length = 13 + r.reason.length := by
  simp [Response.statusLine, protocolName, hstd.status_length]
  omega

theorem Response.Standard.isLine_of_mem (hstd : r.Standard) :
    ∀ line ∈ r.headers ++ [[]], IsLine line := by
  intro line hmem
  rcases List.mem_append.mp hmem with hmem | hmem
  · exact hstd.headers line hmem
  · rw [List.mem_singleton.mp hmem]
    exact ⟨List.not_mem_nil, List.not_mem_nil⟩

theorem Response.head_eq (r : Response) :
    r.head = (r.statusLine ++ crlf) ++ ended (r.headers ++ [[]]) := by
  rw [Response.head, ended, List.flatMap_cons]
  rfl

/-- The parser gets to the start of the body in its header loop. -/
theorem Response.Standard.parse_head (hstd : r.Standard)
    (hbuf : Blocks.stretch buf 0 r.bytes.length = r.bytes) (s : NetState) (resp : HttpResponse) :
    ∃ turns, let h := (headerLoop buf r.bytes.length (turns + 1) r.head.length
        (((r.headers.filterMap leadingNumber).map UInt32.ofNat).getLastD 0)).val
      parsed s buf resp r =
        (takeBody buf s r.bytes.length (if h.1 < r.bytes.length then h.1 + 1 else h.1)
          { resp with
            statusCode := (Int32.ofNat (decimal r.status)).toUInt32.toUInt16
            contentLength := h.2 }).val := by
  have hbytes : r.bytes = (r.statusLine ++ crlf) ++ (ended (r.headers ++ [[]]) ++ r.body) := by
    rw [Response.bytes, r.head_eq, List.append_assoc]
  have hsize := hstd.size
  have hline := hstd.length_statusLine
  have hlineEnd : (r.statusLine ++ crlf).length = r.statusLine.length + 2 := List.length_append
  have hlines := length_le_ended (r.headers ++ [[]])
  have htotal : r.bytes.length = r.statusLine.length + 2 +
      ((ended (r.headers ++ [[]])).length + r.body.length) := by
    rw [hbytes, List.length_append, hlineEnd, List.length_append]
  have hheadEnd : r.head.length = r.statusLine.length + 2 + (ended (r.headers ++ [[]])).length := by
    rw [r.head_eq, List.length_append, hlineEnd]
  obtain ⟨turns, hturns⟩ : ∃ turns, r.bytes.length = (r.headers ++ [[]]).length + (turns + 1) :=
    ⟨r.bytes.length - (r.headers ++ [[]]).length - 1, by omega⟩
  have hn : (UInt16.ofNat r.bytes.length).toNat = r.bytes.length :=
    UInt16.toNat_ofNat_of_lt' (hsize.trans_lt (by decide))
  -- the parts of the buffer
  obtain ⟨hfirst, hrest⟩ := Blocks.stretch_eq_append (hbuf.trans hbytes)
  obtain ⟨hheaders, -⟩ := Blocks.stretch_eq_append hrest
  rw [Nat.zero_add, hlineEnd] at hheaders
  obtain ⟨hnospace, hspace, hcode⟩ := hstd.status_bytes (stretch_line hfirst).1
  have hskip : (skipTo buf r.bytes.length 32 0).val = 8 :=
    skipTo_val (Nat.zero_le 8) (by omega) hnospace hspace
  have hskipLine : (skipTo buf r.bytes.length 10 12).val = r.statusLine.length + 1 := by
    rw [skipTo_line hstd.isLine_statusLine hfirst (by omega) (Nat.zero_le _) (by omega), Nat.zero_add]
  have hloop : (headerLoop buf r.bytes.length ((r.headers ++ [[]]).length + (turns + 1))
      (r.statusLine.length + 2) 0).val = _ := 
    headerLoop_lines hstd.isLine_of_mem hheaders (by omega)
  rw [← hheadEnd, ← hturns, List.filterMap_append, show [[]].filterMap leadingNumber = [] from rfl,
    List.append_nil] at hloop
  have hatoi : atoi [buf 9, buf 10, buf 11, 0] = Int32.ofNat (decimal r.status) := by
    rw [← atoi_digits hstd.status_digits, ← hcode]
    rfl
  refine ⟨turns, ?_⟩
  have hparse := parse_after_status (n := UInt16.ofNat r.bytes.length) (e := r.statusLine.length + 1)
    (by omega) (by rw [hn, hskip]) (by rw [hn, hskipLine]) (by omega) s resp
  rw [hn, hatoi, Nat.add_assoc] at hparse
  rw [← hloop, parsed, hparse]

/-- The number that the parser takes for the length: that of the last line with the name. -/
def Response.readNumber (r : Response) : ℕ := (r.headers.filterMap leadingNumber).getLastD 0

theorem getLastD_map_ofNat : ((r.headers.filterMap leadingNumber).map UInt32.ofNat).getLastD 0 =
    UInt32.ofNat r.readNumber := by
  rw [Response.readNumber, List.getLastD_eq_getLast?, List.getLastD_eq_getLast?, List.getLast?_map]
  cases (r.headers.filterMap leadingNumber).getLast? <;> rfl

/-- A response without a body is parsed, up to its length. -/
theorem Response.Standard.parse_empty (hstd : r.Standard)
    (hbuf : Blocks.stretch buf 0 r.bytes.length = r.bytes) (hbody : r.body = []) {s : NetState}
    (halloc : (malloc s.heap (UInt32.ofNat (r.body.length + 1))).1 ≠ null) (resp : HttpResponse) :
    (parsed s buf resp r).1 = 0 ∧
      (parsed s buf resp r).2.1.statusCode.toNat = decimal r.status ∧
      (parsed s buf resp r).2.1.contentLength.toNat = r.readNumber % 2 ^ 32 ∧
      (parsed s buf resp r).2.1.bodyLen = 0 := by
  obtain ⟨turns, hparse⟩ := hstd.parse_head hbuf s resp
  have hend : r.head.length = r.bytes.length := by rw [Response.bytes, hbody, List.append_nil]
  have hstop (contentLength : UInt32) :
      (headerLoop buf r.bytes.length (turns + 1) r.bytes.length contentLength).val =
        (r.bytes.length, contentLength) := by
    rw [headerLoop, if_neg (lt_irrefl _)]
    rfl
  simp only [hend, hstop, lt_irrefl, if_false, getLastD_map_ofNat] at hparse
  have hsize : r.bytes.length - r.bytes.length + 1 = r.body.length + 1 := by
    rw [hbody, Nat.sub_self]
    rfl
  obtain ⟨hresult, hresp⟩ := @takeBody_ok buf r.bytes.length s r.bytes.length (by rwa [hsize])
    { resp with
      statusCode := (Int32.ofNat (decimal r.status)).toUInt32.toUInt16
      contentLength := UInt32.ofNat r.readNumber }
  have hstatus : decimal r.status < 1000 := by
    have hlt := decimal_lt hstd.status_digits
    rwa [hstd.status_length] at hlt
  rw [hparse, hresp]
  refine ⟨hresult, ?_, ?_, ?_⟩
  · change (UInt32.ofNat (decimal r.status)).toUInt16.toNat = decimal r.status
    rw [UInt32.toNat_toUInt16, UInt32.toNat_ofNat']
    omega
  · exact UInt32.toNat_ofNat'
  · dsimp only
    rw [Nat.sub_self]
    rfl

/-- Of a response with a body the parser loses at least the first byte of the body. -/
theorem Response.Standard.parse_nonempty (hstd : r.Standard)
    (hbuf : Blocks.stretch buf 0 r.bytes.length = r.bytes) (hbody : r.body ≠ []) {s : NetState}
    {resp : HttpResponse} (hresult : (parsed s buf resp r).1 = 0) :
    (parsed s buf resp r).2.1.bodyLen.toNat < r.body.length := by
  obtain ⟨turns, hparse⟩ := hstd.parse_head hbuf s resp
  have htotal : r.bytes.length = r.head.length + r.body.length := List.length_append
  have hpos := List.length_pos_iff.mpr hbody
  dsimp only at hparse
  generalize hloop : (headerLoop buf r.bytes.length (turns + 1) r.head.length
    (((r.headers.filterMap leadingNumber).map UInt32.ofNat).getLastD 0)).val = h at hparse
  have hforward : r.head.length ≤ h.1 := by
    rw [← hloop]
    exact le_headerLoop _ _
  have hstart : r.head.length < if h.1 < r.bytes.length then h.1 + 1 else h.1 := by
    split <;> omega
  rw [hparse] at hresult ⊢
  rw [takeBody_bodyLen hresult, UInt16.toNat_ofNat']
  have hle := Nat.mod_le
    (r.bytes.length - if h.1 < r.bytes.length then h.1 + 1 else h.1) (2 ^ 16)
  omega

/-- EXACT: a standard response is parsed exactly, given memory for its body, precisely if it has no
    body and the last line with the name `Content-Length` has the length in its first 15 digits. -/
theorem parses_exactly_iff {s : NetState} {resp : HttpResponse} (hstd : r.Standard)
    (hbuf : Blocks.stretch buf 0 r.bytes.length = r.bytes)
    (halloc : (malloc s.heap (UInt32.ofNat (r.body.length + 1))).1 ≠ null) :
    ParsesExactly s buf resp r ↔ r.body = [] ∧ r.readNumber % 2 ^ 32 = r.contentLength := by
  by_cases hbody : r.body = []
  · obtain ⟨hresult, hstatus, hlength, hempty⟩ := hstd.parse_empty hbuf hbody halloc resp
    constructor
    · exact fun h => ⟨hbody, hlength.symm.trans h.length⟩
    · rintro ⟨-, hnumber⟩
      refine ⟨hresult, hstatus, hlength.trans hnumber, ?_⟩
      rw [hempty, hbody]
      rfl
  · refine iff_of_false (fun h => ?_) fun h => hbody h.1
    have hshort := hstd.parse_nonempty hbuf hbody h.result
    have hlen := congrArg List.length h.body
    rw [Blocks.length_stretch] at hlen
    omega

/-- Numbers come from lines with the name alone. -/
theorem filterMap_of_name {f : List UInt8 → Option ℕ} {l : List UInt8} {n : ℕ}
    (hname : ∀ line, f line ≠ none → contentLengthName <+: line)
    (hone : r.headers.filter (contentLengthName <+: ·) = [l]) (hl : f l = some n) :
    r.headers.filterMap f = [n] := by
  have hf : f = fun line => if decide (contentLengthName <+: line) = true then f line else none := by
    funext line
    by_cases h : f line = none
    · rw [h, ite_self]
    · rw [if_pos (decide_eq_true (hname line h))]
  rw [hf, ← List.filterMap_filter, hone, List.filterMap_cons_some hl, List.filterMap_nil]

/-- If one line alone starts with the name, and a number follows, then the parser takes the length
    precisely if the number has at most 15 digits or is `0`. -/
theorem readNumber_eq_iff {digits : List UInt8} (hne : digits ≠ [])
    (hdigits : ∀ c ∈ digits, isdigit c = true) (hlt : decimal digits < 2 ^ 31)
    (hone : r.headers.filter (contentLengthName <+: ·) = [contentLengthName ++ digits]) :
    r.readNumber % 2 ^ 32 = r.contentLength ↔ digits.length ≤ 15 ∨ decimal digits = 0 := by
  have hdrop : (contentLengthName ++ digits).drop 16 = digits := rfl
  have hname : contentLengthName <+: contentLengthName ++ digits := List.prefix_append ..
  have hread : leadingNumber (contentLengthName ++ digits) = some (decimal (digits.take 15)) := by
    rw [leadingNumber, if_pos hname, hdrop, List.takeWhile_eq_self_iff.mpr hdigits]
  have hvalue : lengthValue (contentLengthName ++ digits) = some (decimal digits) := by
    rw [lengthValue, hdrop, if_pos ⟨hname, hne, List.all_eq_true.mpr hdigits⟩]
  have hnumber : r.readNumber = decimal (digits.take 15) := by
    rw [Response.readNumber, filterMap_of_name (fun line h => ?_) hone hread]
    · rfl
    · by_contra hno
      exact h (if_neg hno)
  have hlength : r.contentLength = decimal digits := by
    rw [Response.contentLength, filterMap_of_name (fun line h => ?_) hone hvalue]
    · rfl
    · by_contra hno
      exact h (if_neg fun hall => hno hall.1)
  have hsplit : decimal digits =
      decimal (digits.drop 15) + 10 ^ (digits.drop 15).length * decimal (digits.take 15) := by
    rw [← decimal_append, List.take_append_drop]
  have hle : decimal (digits.take 15) ≤ decimal digits := by
    rw [hsplit]
    exact (Nat.le_mul_of_pos_left _ (by positivity)).trans (Nat.le_add_left ..)
  rw [hnumber, hlength, Nat.mod_eq_of_lt (by omega)]
  constructor
  · intro heq
    by_contra! hno
    -- a digit that is left out makes the number ten times as large
    have hten : 10 ≤ 10 ^ (digits.drop 15).length := by
      rw [List.length_drop]
      exact Nat.le_self_pow (by omega) 10
    have hmul := Nat.mul_le_mul_right (decimal (digits.take 15)) hten
    omega
  · rintro (hshort | hzero)
    · rw [List.take_of_length_le hshort]
    · omega

/-- A response without a body, `"204"` with the length `"0"`. -/
def emptyResponse : Response where
  version := 49
  status := [50, 48, 52]
  reason := []
  headers := [contentLengthName ++ [48]]
  body := []

/-- The response `"200"` with the body `"Hi"`. -/
def hiResponse : Response where
  version := 49
  status := [50, 48, 48]
  reason := [79, 75]
  headers := []
  body := [72, 105]

/-- A buffer that starts with the response. -/
def Response.inBuffer (r : Response) (i : ℕ) : UInt8 := r.bytes.getD i 0

theorem parses_exactly_empty :
    emptyResponse.Standard ∧
      ParsesExactly sampleHost emptyResponse.inBuffer clearedResponse emptyResponse := by
  have hstd : emptyResponse.Standard :=
    ⟨rfl, rfl, by decide +kernel, by decide, by decide, by decide, by decide, by decide⟩
  exact ⟨hstd, (parses_exactly_iff hstd (Blocks.stretch_getD ..) (by decide)).mpr ⟨rfl, by decide⟩⟩

/-- The body of a response is lost. -/
theorem body_lost :
    hiResponse.Standard ∧
      (malloc sampleHost.heap (UInt32.ofNat (hiResponse.body.length + 1))).1 ≠ null ∧
      (parsed sampleHost hiResponse.inBuffer clearedResponse hiResponse).1 = 0 ∧
      (parsed sampleHost hiResponse.inBuffer clearedResponse hiResponse).2.1.bodyLen = 0 ∧
      ¬ParsesExactly sampleHost hiResponse.inBuffer clearedResponse hiResponse := by
  have hlen : (parsed sampleHost hiResponse.inBuffer clearedResponse hiResponse).2.1.bodyLen = 0 := by
    decide +kernel
  refine ⟨⟨rfl, rfl, by decide +kernel, by decide, by decide, by decide, by decide, by decide⟩, by decide,
    by decide +kernel, hlen, fun h => ?_⟩
  have hbody := h.body
  rw [hlen] at hbody
  cases hbody

end VlsOs.Net.Http
