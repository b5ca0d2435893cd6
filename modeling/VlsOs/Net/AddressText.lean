import VlsOs.Libc.Itoa
import VlsOs.Net.Wire

/-! Addresses as text: the parser of dotted addresses that `cmd_ping` (`net/netcmd.c`) and
    `http_client_get` (`net/http_client.c`) each have a copy of.

    Digits are collected in `num_buf`, at most three of them; a dot turns them into an octet and starts
    over. Characters of any other kind, and digits beyond the third, are passed over. What stands
    in the buffer at the end of the text becomes the octet after the last dot.

        1   9   2   .         1   6   8   .     …    7   NUL
        └ num_buf ┘ octets[0]                        └ the last octet, outside the loop -/

namespace VlsOs.Net
open VlsOs.Libc

/-- The local variables of the parser: the octets stored so far, `num_buf` and `num_idx`. -/
structure QuadState where
  octets : List Int32
  numBuf : List UInt8
  numIdx : ℕ

section
variable (digit : UInt8 → Bool)

/-- The body of the loop; `digit` is the test for a digit. -/
def quadStep (st : QuadState) (c : UInt8) : QuadState :=
  if c = 46 ∨ c = 0 then
    if st.numIdx > 0 then ⟨st.octets ++ [atoi st.numBuf], st.numBuf.set 0 0, 0⟩ else st
  else if digit c ∧ st.numIdx < 3 then
    { st with numBuf := (st.numBuf.set st.numIdx c).set (st.numIdx + 1) 0, numIdx := st.numIdx + 1 }
  else st

/-- The loop over the text, up to its NUL or the fourth octet. -/
def quadLoop : List UInt8 → QuadState → QuadState
  | [], st => st
  | c :: rest, st =>
    if c ≠ 0 ∧ st.octets.length < 4 then quadLoop rest (quadStep digit st c) else st

/-- What follows the loop: the octet after the last dot. -/
def quadEnd (st : QuadState) : List Int32 :=
  if st.octets.length < 4 then st.octets ++ [atoi st.numBuf] else st.octets

/-- The parser: the address, or `none` where an invalid one is reported. An octet is stored in a byte,
    which takes its value modulo 256. -/
def parseQuad (arg : List UInt8) : Option Ipv4Addr :=
  let octets := quadEnd (quadLoop digit arg ⟨[], [0, 0, 0, 0], 0⟩)
  if octets.length ≠ 4 then none
  else some (Vector.ofFn fun i => (octets.getD i 0).toUInt32.toUInt8)

end

/-- The parser in `cmd_ping`. -/
def pingAddress (arg : List UInt8) : Option Ipv4Addr := parseQuad isdigit arg

/-- The parser in `http_client_get`, which compares the character itself. -/
def hostAddress (host : List UInt8) : Option Ipv4Addr :=
  parseQuad (fun c => 48 ≤ promote c ∧ promote c ≤ 57) host

/-- An octet as `itoa` writes it in base 10. -/
def octetText (octet : UInt8) : List UInt8 :=
  text (itoa (Int32.ofNat octet.toNat) (List.replicate 4 0) 10)

/-- The dotted text of an address. -/
def dottedQuad (addr : Ipv4Addr) : List UInt8 := [46].intercalate (addr.toList.map octetText)

/-! ### One octet -/

theorem octetText_eq (octet : UInt8) : octetText octet = numeralText 10 octet.toNat := by
  have hoctet := octet.toNat_lt
  exact (text_itoa (by decide) (by decide) _ _).trans
    (itoaText_ofNat (by decide) (by decide) (by omega))

theorem length_octetText_le (octet : UInt8) : (octetText octet).length ≤ 3 := by
  have hoctet := octet.toNat_lt
  rw [octetText_eq, length_numeralText,
    Patterns.Numerals.length_numeral_le_iff (by decide) (by decide)]
  omega

theorem octetText_ne_nil (octet : UInt8) : octetText octet ≠ [] := by
  rw [octetText_eq]
  exact numeralText_ne_nil (by decide) _

theorem isdigit_of_mem_octetText {octet c : UInt8} (h : c ∈ octetText octet) : isdigit c = true :=
  isdigit_of_mem_numeralText (octetText_eq octet ▸ h)

theorem decimal_octetText (octet : UInt8) : decimal (octetText octet) = octet.toNat := by
  rw [octetText_eq, decimal_numeralText]

/-! ### Parts -/

/-- The digits that are kept of a part. -/
def kept (part : List UInt8) : List UInt8 := (part.filter isdigit).take 3

/-- What is kept of the parts that count. -/
def found : List (List UInt8) → List (List UInt8)
  | [] => []
  | [last] => [kept last]
  | part :: parts => if kept part = [] then found parts else kept part :: found parts

theorem found_cons (part next : List UInt8) (parts : List (List UInt8)) :
    found (part :: next :: parts) = if kept part = [] then found (next :: parts)
      else kept part :: found (next :: parts) := rfl

/-- An octet as the parser stores it. -/
def octetOf (digits : List UInt8) : Int32 := Int32.ofNat (decimal digits)

theorem isdigit_of_mem_kept {part : List UInt8} {c : UInt8} (h : c ∈ kept part) : isdigit c = true :=
  (List.mem_filter.mp (List.mem_of_mem_take h)).2

theorem atoi_kept (part rest : List UInt8) : atoi (kept part ++ 0 :: rest) = octetOf (kept part) := by
  rcases eq_or_ne (kept part) [] with hnil | hne
  · rw [hnil]
    rfl
  · exact atoi_digits_append (fun c hc => isdigit_of_mem_kept hc) hne rfl

/-- Parts with nothing but digits are all found. -/
theorem found_digits {parts : List (List UInt8)}
    (h : ∀ part ∈ parts, part ≠ [] ∧ ∀ c ∈ part, isdigit c = true) :
    found parts = parts.map (List.take 3) := by
  have hkept (part : List UInt8) (hpart : ∀ c ∈ part, isdigit c = true) :
      kept part = part.take 3 := by
    rw [kept, List.filter_eq_self.mpr hpart]
  induction parts with
  | nil => rfl
  | cons part parts ih =>
    obtain ⟨⟨hne, hdigits⟩, hparts⟩ := List.forall_mem_cons.mp h
    cases parts with
    | nil => rw [found, hkept part hdigits, List.map_singleton]
    | cons next parts =>
      rw [found_cons, ih hparts, hkept part hdigits, if_neg (by simpa using hne)]
      rfl

/-! ### The loop over a part -/

section Parser
variable {digit : UInt8 → Bool} (hdigit : ∀ c, digit c = isdigit c)

theorem quadLoop_full {octets : List Int32} (h : octets.length = 4) (s buf : List UInt8) (idx : ℕ) :
    quadLoop digit s ⟨octets, buf, idx⟩ = ⟨octets, buf, idx⟩ := by
  cases s with
  | nil => rfl
  | cons c s => exact if_neg fun hgo => absurd hgo.2 (by dsimp only; omega)

/-- What is no digit, or has no room, is left out. -/
theorem quadStep_skip {st : QuadState} {c : UInt8} (hno : ¬(c = 46 ∨ c = 0))
    (hskip : ¬(digit c = true ∧ st.numIdx < 3)) : quadStep digit st c = st := by
  rw [quadStep, if_neg hno, if_neg hskip]

include hdigit

/-- The buffer while the digits of an octet come in: those seen so far, a NUL, and the rest of the
    four bytes. -/
theorem quadStep_digit {octets : List Int32} {seen rest : List UInt8} {c : UInt8}
    (hc : isdigit c = true) (hseen : seen.length < 3) (hrest : rest ≠ []) :
    quadStep digit ⟨octets, seen ++ 0 :: rest, seen.length⟩ c =
      ⟨octets, (seen ++ [c]) ++ 0 :: rest.tail, (seen ++ [c]).length⟩ := by
  obtain ⟨x, rest, rfl⟩ := List.exists_cons_of_ne_nil hrest
  have hdot : ¬ (c = 46 ∨ c = 0) := by
    rw [not_or]
    exact ⟨ne_of_isdigit hc rfl, ne_of_isdigit hc rfl⟩
  rw [quadStep, if_neg hdot, if_pos ⟨(hdigit c).trans hc, hseen⟩]
  simp

/-- The characters of a part: digits come into the buffer until it is full. -/
theorem quadLoop_part (part tail : List UInt8) : ∀ {octets : List Int32} {seen rest : List UInt8},
    octets.length < 4 → (∀ c ∈ part, c ≠ 46 ∧ c ≠ 0) → seen.length + rest.length = 3 →
    ∃ rest', ((seen ++ part.filter isdigit).take 3).length + List.length rest' = 3 ∧
      quadLoop digit (part ++ tail) ⟨octets, seen ++ 0 :: rest, seen.length⟩ =
        quadLoop digit tail ⟨octets, (seen ++ part.filter isdigit).take 3 ++ 0 :: rest',
          ((seen ++ part.filter isdigit).take 3).length⟩ := by
  induction part with
  | nil =>
    intro octets seen rest hoctets _ hlen
    have hall : (seen ++ [].filter isdigit).take 3 = seen := by
      rw [List.filter_nil, List.append_nil, List.take_of_length_le (by omega)]
    rw [hall]
    exact ⟨rest, hlen, rfl⟩
  | cons c part ih =>
    intro octets seen rest hoctets hpart hlen
    obtain ⟨⟨hdot, hnul⟩, hpart⟩ := List.forall_mem_cons.mp hpart
    have hno : ¬(c = 46 ∨ c = 0) := not_or.mpr ⟨hdot, hnul⟩
    rw [List.cons_append, quadLoop, if_pos ⟨hnul, hoctets⟩]
    by_cases hc : isdigit c = true
    · rw [List.filter_cons_of_pos hc]
      rcases Nat.lt_or_ge seen.length 3 with hroom | hfull
      · have hne : rest ≠ [] := List.ne_nil_of_length_pos (by omega)
        rw [quadStep_digit hdigit hc hroom hne]
        have hnext := ih hoctets hpart (show (seen ++ [c]).length + rest.tail.length = 3 by simp; omega)
        rwa [List.append_assoc, List.singleton_append] at hnext
      · -- the buffer is full
        rw [quadStep_skip hno fun h => absurd h.2 (Nat.not_lt.mpr hfull)]
        have hnext := ih hoctets hpart hlen
        rwa [List.take_append_of_le_length hfull] at hnext ⊢
    · rw [quadStep_skip hno fun h => hc ((hdigit c).symm.trans h.1), List.filter_cons_of_neg hc]
      exact ih hoctets hpart hlen

/-- A whole part, from an empty buffer on. -/
theorem quadLoop_kept {octets : List Int32} {part rest : List UInt8} (tail : List UInt8)
    (hoctets : octets.length < 4) (hpart : ∀ c ∈ part, c ≠ 46 ∧ c ≠ 0) (hrest : rest.length = 3) :
    ∃ rest', (kept part).length + List.length rest' = 3 ∧
      quadLoop digit (part ++ tail) ⟨octets, 0 :: rest, 0⟩ =
        quadLoop digit tail ⟨octets, kept part ++ 0 :: rest', (kept part).length⟩ :=
  quadLoop_part hdigit part tail hoctets hpart
    (show [].length + rest.length = 3 by rw [List.length_nil, hrest])

/-- A part and the dot behind it. -/
theorem quadLoop_dot {octets : List Int32} {part rest : List UInt8} (tail : List UInt8)
    (hoctets : octets.length < 4) (hpart : ∀ c ∈ part, c ≠ 46 ∧ c ≠ 0) (hrest : rest.length = 3) :
    ∃ rest', List.length rest' = 3 ∧
      quadLoop digit (part ++ 46 :: tail) ⟨octets, 0 :: rest, 0⟩ =
        quadLoop digit tail
          ⟨if kept part = [] then octets else octets ++ [octetOf (kept part)], 0 :: rest', 0⟩ := by
  obtain ⟨rest', hlen, hread⟩ := quadLoop_kept hdigit (46 :: tail) hoctets hpart hrest
  rw [quadLoop, if_pos ⟨by decide, hoctets⟩, quadStep, if_pos (.inl rfl), atoi_kept] at hread
  rcases eq_or_ne (kept part) [] with hnil | hne
  · rw [hnil] at hread hlen ⊢
    rw [List.length_nil, zero_add] at hlen
    exact ⟨rest', hlen, hread⟩
  · obtain ⟨d, digits, heq⟩ := List.exists_cons_of_ne_nil hne
    rw [if_pos (List.length_pos_of_ne_nil hne)] at hread
    refine ⟨digits ++ 0 :: rest', ?_, hread.trans ?_⟩
    · rw [heq, List.length_cons] at hlen
      rw [List.length_append, List.length_cons]
      omega
    · rw [if_neg hne, heq]
      rfl

/-- CORRECT: the octets of a text are those found in its parts, up to the fourth. -/
theorem quadEnd_parts {parts : List (List UInt8)} (hne : parts ≠ [])
    (hparts : ∀ part ∈ parts, ∀ c ∈ part, c ≠ 46 ∧ c ≠ 0) :
    ∀ {octets : List Int32} {rest : List UInt8}, octets.length ≤ 4 → rest.length = 3 →
      quadEnd (quadLoop digit ([46].intercalate parts) ⟨octets, 0 :: rest, 0⟩) =
        (octets ++ (found parts).map octetOf).take 4 := by
  induction parts with
  | nil => exact absurd rfl hne
  | cons part parts ih =>
    intro octets rest hoctets hrest
    obtain ⟨hpart, hparts⟩ := List.forall_mem_cons.mp hparts
    rcases Nat.lt_or_ge octets.length 4 with hroom | hfull
    · have hone (octet : Int32) : (octets ++ [octet]).length ≤ 4 := by
        rw [List.length_append, List.length_singleton]
        omega
      cases parts with
      | nil =>
        -- what stands behind the last dot
        obtain ⟨rest', -, hread⟩ := quadLoop_kept hdigit [] hroom hpart hrest
        have hlast : [46].intercalate [part] = part ++ [] := by simp
        rw [hlast, hread, quadLoop, quadEnd, if_pos hroom, atoi_kept, found, List.map_singleton,
          List.take_of_length_le (hone _)]
      | cons next parts =>
        obtain ⟨rest', hrest', hread⟩ := quadLoop_dot hdigit ([46].intercalate (next :: parts)) hroom
          hpart hrest
        have hjoin : [46].intercalate (part :: next :: parts) =
            part ++ 46 :: [46].intercalate (next :: parts) := by simp [List.intercalate]
        rw [hjoin, hread, found_cons]
        split
        · exact ih (List.cons_ne_nil _ _) hparts hoctets hrest'
        · rw [ih (List.cons_ne_nil _ _) hparts (hone _) hrest', List.map_cons, List.append_assoc,
            List.singleton_append]
    · have hfour : octets.length = 4 := by omega
      rw [quadLoop_full hfour, quadEnd, if_neg (by dsimp only; omega),
        List.take_append_of_le_length hfull, List.take_of_length_le hoctets]

/-- Every octet of a dotted text comes back. -/
theorem parseQuad_dottedQuad (addr : Ipv4Addr) : parseQuad digit (dottedQuad addr) = some addr := by
  have hne : addr.toList.map octetText ≠ [] := List.ne_nil_of_length_pos (by simp)
  have hfields : ∀ part ∈ addr.toList.map octetText,
      part ≠ [] ∧ ∀ c ∈ part, isdigit c = true := by
    intro part hpart
    obtain ⟨octet, -, rfl⟩ := List.mem_map.mp hpart
    exact ⟨octetText_ne_nil octet, fun c hc => isdigit_of_mem_octetText hc⟩
  have hclean : ∀ part ∈ addr.toList.map octetText, ∀ c ∈ part, c ≠ 46 ∧ c ≠ 0 := by
    intro part hpart c hc
    have hdigit := (hfields part hpart).2 c hc
    exact ⟨ne_of_isdigit hdigit rfl, ne_of_isdigit hdigit rfl⟩
  have hoctet (octet : UInt8) : octetOf ((octetText octet).take 3) = Int32.ofNat octet.toNat := by
    rw [List.take_of_length_le (length_octetText_le octet), octetOf, decimal_octetText]
  have hoctets := quadEnd_parts hdigit hne hclean (show [].length ≤ 4 from Nat.zero_le 4)
    (show [0, 0, 0].length = 3 from rfl)
  rw [List.nil_append, found_digits hfields, List.map_map, List.map_map,
    List.take_of_length_le (by simp)] at hoctets
  rw [parseQuad, dottedQuad, hoctets]
  simp [hoctet]

end Parser

theorem hostDigit_eq (c : UInt8) : decide (48 ≤ promote c ∧ promote c ≤ 57) = isdigit c := by
  have hc := c.toNat_lt
  have hpromote : promote c = if c.toNat < 128 then (c.toNat : ℤ) else c.toNat - 256 := by
    rw [promote, BitVec.toInt_eq_toNat_cond, UInt8.toNat_toBitVec]
    split <;> split <;> omega
  rw [Bool.eq_iff_iff, decide_eq_true_iff, isdigit_iff, hpromote]
  split <;> omega

theorem pingAddress_dottedQuad (addr : Ipv4Addr) : pingAddress (dottedQuad addr) = some addr :=
  parseQuad_dottedQuad (fun _ => rfl) addr

theorem hostAddress_dottedQuad (addr : Ipv4Addr) : hostAddress (dottedQuad addr) = some addr :=
  parseQuad_dottedQuad hostDigit_eq addr

end VlsOs.Net
