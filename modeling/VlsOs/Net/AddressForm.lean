import VlsOs.Net.Commands

/-! Which texts the parser of addresses takes for one.

    The parser cuts the text at its dots and keeps the first three digits of each part, whatever else
    stands there. A part in front of a dot counts if it has a digit; what stands behind the last dot
    always counts, with or without one. Four parts make an address, and those behind the fourth are
    not looked at.

        "1.2.3."      1, 2, 3, 0             "a1b.2.3.4"   1, 2, 3, 4
        "1..2.3.4"    1, 2, 3, 4             "1.2.3.4.5"   1, 2, 3, 4
        "256.1.1.1"   0, 1, 1, 1             "0001.2.3.4"  0, 2, 3, 4 -/

namespace VlsOs.Net
open Patterns.Trace VlsOs.Libc VlsOs.Net.Sock VlsOs.Net.Http VlsOs.Shell

/-! ### The address -/

/-- The parts of a text between its dots. -/
def dotParts (arg : List UInt8) : List (List UInt8) := (text arg).splitOn 46

theorem quadLoop_text {digit : UInt8 → Bool} (s : List UInt8) :
    ∀ st : QuadState, quadLoop digit s st = quadLoop digit (text s) st := by
  induction s with
  | nil => exact fun _ => rfl
  | cons c s ih =>
    intro st
    rw [text_cons, quadLoop]
    by_cases hzero : c = 0
    · rw [if_neg fun hgo => hgo.1 hzero, if_pos hzero]
      rfl
    · rw [if_neg hzero, quadLoop, ih]

theorem mem_of_mem_splitOn {a : UInt8} {s : List UInt8} : ∀ {part : List UInt8},
    part ∈ s.splitOn a → ∀ c ∈ part, c ≠ a ∧ c ∈ s := by
  induction s with
  | nil => simp
  | cons x s ih =>
    intro part hpart c hc
    rw [List.splitOn_cons_eq_if_modifyHead] at hpart
    split_ifs at hpart with hx
    · rcases List.mem_cons.mp hpart with rfl | hpart
      · cases hc
      · exact ⟨(ih hpart c hc).1, List.mem_cons_of_mem _ (ih hpart c hc).2⟩
    · obtain ⟨first, others, hsplit⟩ := List.exists_cons_of_ne_nil (List.splitOn_ne_nil a s)
      rw [hsplit] at ih hpart
      rw [List.modifyHead_cons] at hpart
      rcases List.mem_cons.mp hpart with rfl | hpart
      · rcases List.mem_cons.mp hc with rfl | hc
        · exact ⟨by simpa using hx, List.mem_cons_self⟩
        · have hfirst := ih List.mem_cons_self c hc
          exact ⟨hfirst.1, List.mem_cons_of_mem _ hfirst.2⟩
      · have hother := ih (List.mem_cons_of_mem _ hpart) c hc
        exact ⟨hother.1, List.mem_cons_of_mem _ hother.2⟩

theorem dotParts_clean {arg part : List UInt8} (h : part ∈ dotParts arg) :
    ∀ c ∈ part, c ≠ 46 ∧ c ≠ 0 := by
  intro c hc
  obtain ⟨hdot, hmem⟩ := mem_of_mem_splitOn h c hc
  exact ⟨hdot, ne_zero_of_mem_text hmem⟩

/-- The address with the given octets; each is stored in a byte. -/
def addressOf (octets : List (List UInt8)) : Ipv4Addr :=
  Vector.ofFn fun i => UInt8.ofNat (decimal (octets.getD i []))

theorem toList_addressOf {octets : List (List UInt8)} (h : 4 ≤ octets.length) :
    (addressOf octets).toList.map UInt8.toNat = (octets.take 4).map (decimal · % 256) := by
  match octets, h with
  | a :: b :: c :: d :: _, _ =>
    rw [addressOf, Vector.toList_ofFn]
    simp [List.ofFn_succ]

/-- SPEC of the parser: it takes a text with four parts that count, and what is kept of them are the
    octets. -/
theorem parseQuad_eq {digit : UInt8 → Bool} (hdigit : ∀ c, digit c = isdigit c) (arg : List UInt8) :
    parseQuad digit arg = if (found (dotParts arg)).length < 4 then none
      else some (addressOf (found (dotParts arg))) := by
  have hoctets := quadEnd_parts hdigit (List.splitOn_ne_nil 46 (text arg))
    (fun part hpart => dotParts_clean hpart) (show [].length ≤ 4 from Nat.zero_le 4)
    (show [0, 0, 0].length = 3 from rfl)
  rw [List.intercalate_splitOn, ← quadLoop_text, List.nil_append, ← dotParts] at hoctets
  rw [parseQuad, hoctets]
  rcases found (dotParts arg) with _ | ⟨a, _ | ⟨b, _ | ⟨c, _ | ⟨d, rest⟩⟩⟩⟩
  · rfl
  · rfl
  · rfl
  · rfl
  · rw [if_neg (by simp), if_neg (by simp)]
    refine congrArg some (congrArg Vector.ofFn (funext fun i => ?_))
    fin_cases i <;> simp [octetOf]

/-! ### Addresses as they should be -/

/-- The text is the dotted form of the address: four decimal numbers with a dot between each two. -/
def IsQuad (arg : List UInt8) (addr : Ipv4Addr) : Prop :=
  ∃ fields : List (List UInt8), fields.length = 4 ∧
    (∀ field ∈ fields, field ≠ [] ∧ ∀ c ∈ field, isdigit c = true) ∧
    text arg = [46].intercalate fields ∧ fields.map decimal = addr.toList.map UInt8.toNat

/-- The texts on which the parser is sound: it does not take them, or they are four decimal numbers
    that fit a byte and that three digits are enough to read. -/
def ReadsRight (arg : List UInt8) : Prop :=
  (dotParts arg).dropLast.countP (·.any isdigit) < 3 ∨
    (dotParts arg).length = 4 ∧ ∀ field ∈ dotParts arg,
      (field ≠ [] ∧ ∀ c ∈ field, isdigit c = true) ∧
        decimal field < 256 ∧ (field.length ≤ 3 ∨ decimal field = 0)

theorem length_found {parts : List (List UInt8)} (hne : parts ≠ []) :
    (found parts).length = parts.dropLast.countP (·.any isdigit) + 1 := by
  induction parts with
  | nil => exact absurd rfl hne
  | cons part parts ih =>
    cases parts with
    | nil => rfl
    | cons next parts =>
      have hkept : kept part = [] ↔ ¬part.any isdigit = true := by
        simp [kept]
      have ih := ih (List.cons_ne_nil _ _)
      rw [found_cons, List.dropLast_cons_cons, List.countP_cons]
      by_cases hany : part.any isdigit = true
      · rw [if_neg (hkept.not.mpr (not_not.mpr hany)), if_pos hany, List.length_cons, ih]
      · rw [if_pos (hkept.mpr hany), if_neg hany, ih, add_zero]

/-- The first `n` digits are the number exactly when there are no more of them, or all are zero. -/
theorem decimal_take_iff (digits : List UInt8) (n : ℕ) {m : ℕ} (hm : 0 < m) :
    decimal digits = decimal (digits.take n) % m ↔
      decimal digits < m ∧ (digits.length ≤ n ∨ decimal digits = 0) := by
  rcases Nat.lt_or_ge n digits.length with hlong | hshort
  · have hsplit := decimal_append (digits.take n) (digits.drop n)
    rw [List.take_append_drop] at hsplit
    have hpow : 10 ≤ 10 ^ (digits.drop n).length := by
      rw [List.length_drop]
      exact Nat.le_self_pow (by omega) 10
    have hmul : 10 * decimal (digits.take n) ≤ 10 ^ (digits.drop n).length * decimal (digits.take n) :=
      Nat.mul_le_mul_right _ hpow
    constructor
    · intro heq
      have hle := Nat.mod_le (decimal (digits.take n)) m
      have hzero : decimal digits = 0 := by omega
      exact ⟨by omega, .inr hzero⟩
    · rintro ⟨_, hle | hzero⟩
      · omega
      · have htake : decimal (digits.take n) = 0 := by omega
        rw [hzero, htake, Nat.zero_mod]
  · rw [List.take_of_length_le hshort, and_iff_left (.inl hshort), eq_comm, Nat.mod_eq_iff_lt hm.ne']

/-- The parts of a text in dotted form are its numbers. -/
theorem dotParts_of_fields {arg : List UInt8} {fields : List (List UInt8)} (hne : fields ≠ [])
    (hdigits : ∀ field ∈ fields, field ≠ [] ∧ ∀ c ∈ field, isdigit c = true)
    (htext : text arg = [46].intercalate fields) : dotParts arg = fields := by
  rw [dotParts, htext, List.splitOn_intercalate 46 (fun field hfield hdot => ?_) hne]
  exact absurd ((hdigits field hfield).2 46 hdot) (by decide)

/-- EXACT: the parser is sound on a text exactly if `ReadsRight` says so. -/
theorem parseQuad_sound_iff {digit : UInt8 → Bool} (hdigit : ∀ c, digit c = isdigit c)
    (arg : List UInt8) :
    (∀ addr, parseQuad digit arg = some addr → IsQuad arg addr) ↔ ReadsRight arg := by
  have hlen := length_found (List.splitOn_ne_nil 46 (text arg))
  rw [← dotParts] at hlen
  rw [parseQuad_eq hdigit arg]
  constructor
  · intro h
    rcases Nat.lt_or_ge ((dotParts arg).dropLast.countP (·.any isdigit)) 3 with hfew | hmany
    · exact .inl hfew
    -- the text is taken, so it is in dotted form and its parts are the fields
    obtain ⟨fields, hfour, hdigits, htext, hvalues⟩ := h _ (if_neg (by omega))
    obtain rfl : dotParts arg = fields :=
      dotParts_of_fields (List.ne_nil_of_length_pos (by omega)) hdigits htext
    rw [toList_addressOf (by omega), found_digits hdigits, List.take_of_length_le (by simp [hfour]),
      List.map_map, List.map_inj_left] at hvalues
    exact .inr ⟨hfour, fun field hfield =>
      ⟨hdigits field hfield, (decimal_take_iff field 3 (by decide)).mp (hvalues field hfield)⟩⟩
  · rintro (hfew | ⟨hfour, hfields⟩) addr haddr
    · rw [if_pos (by omega)] at haddr
      cases haddr
    · have hdigits := fun field hfield => (hfields field hfield).1
      rw [found_digits hdigits, List.length_map, if_neg (by omega), Option.some.injEq] at haddr
      subst haddr
      refine ⟨dotParts arg, hfour, hdigits, (List.intercalate_splitOn 46).symm, ?_⟩
      rw [toList_addressOf (by simp [hfour]), List.take_of_length_le (by simp [hfour]), List.map_map,
        List.map_inj_left]
      exact fun field hfield => (decimal_take_iff field 3 (by decide)).mpr (hfields field hfield).2

/-- EXACT: both copies of the parser take a text for an address that it is not the dotted form of,
    unless it is one of those that they read right. What is no address is reported. -/
theorem address_sound_iff (arg : List UInt8) :
    (((∀ addr, pingAddress arg = some addr → IsQuad arg addr) ↔ ReadsRight arg) ∧
      ∀ (s : NetState) (command : List UInt8) (others : List (List UInt8)),
        cmdPing s (command :: arg :: others) = match pingAddress arg with
          | none => do
            vgaWriteString (chars "Invalid IP address\n")
            return (0, s)
          | some addr => pingHost s arg addr) ∧
    (((∀ addr, hostAddress arg = some addr → IsQuad arg addr) ↔ ReadsRight arg) ∧
      ∀ (s : Sockets) (port : UInt16) (path : Option (List UInt8)) (responseBuf : ℕ → UInt8),
        httpClientGet s arg port path responseBuf = match hostAddress arg with
          | none => do
            vgaWriteString (chars "Invalid host IP\n")
            return (-1, clearedResponse, s)
          | some addr => httpExchange s addr arg port path responseBuf) :=
  ⟨⟨parseQuad_sound_iff (fun _ => rfl) arg, fun _ _ _ => rfl⟩,
    parseQuad_sound_iff hostDigit_eq arg, fun _ _ _ _ => rfl⟩

/-- Three numbers and a dot are taken for an address. -/
theorem trailing_dot_taken :
    (pingAddress (chars "1.2.3.")).isSome ∧ (hostAddress (chars "1.2.3.")).isSome ∧
      ∀ addr, ¬IsQuad (chars "1.2.3.") addr := by
  refine ⟨by decide, by decide, ?_⟩
  rintro addr ⟨fields, hfour, hdigits, htext, -⟩
  have hfields := dotParts_of_fields (List.ne_nil_of_length_pos (by omega)) hdigits htext
  have hempty : [] ∈ dotParts (chars "1.2.3.") := by decide
  exact (hdigits [] (hfields ▸ hempty)).1 rfl

end VlsOs.Net
