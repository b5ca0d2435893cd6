import VlsOs.Net.Commands
import VlsOs.Net.Dhcp
import VlsOs.Net.Inside

/-! Which numbers fit in the local arrays of `cmd_ifconfig` and `cmd_wget`.

    `itoa` writes the digits and a NUL, so an array of `size + 1` characters holds the numbers below
    `base ^ size`. The array of `cmd_ifconfig` has three characters: two hexadecimal digits are every
    octet, two decimal digits are not.

        MAC     00 … ff      ff NUL           3 bytes
        inet    0 … 99       99 NUL           3 bytes
                100 … 255    192 NUL          4 bytes

    The port fits. The status code comes from three characters through `atoi`, which takes a sign, and
    a 16-bit field: a negative code becomes a number of five digits. -/

namespace VlsOs.Net
open Patterns Patterns.Trace VlsOs.Memory VlsOs.Libc VlsOs.Net.Sock VlsOs.Net.Http VlsOs.Shell

/-- What `itoa` stores, with its NUL, lies inside the array it is given. -/
def Fits : CmdEvent → Prop
  | .store size bytes => bytes.length ≤ size
  | _ => True

@[simp] theorem all_fits_vgaWriteString (s : List UInt8) : All Fits (vgaWriteString s) :=
  all_emit.mpr trivial

@[simp] theorem all_fits_vgaWriteChar (c : UInt8) : All Fits (vgaWriteChar c) :=
  all_emit.mpr trivial

theorem length_itoa_nil {b n : ℕ} (hlow : 2 ≤ b) (hhigh : b ≤ 36) (hn : n < 2 ^ 31) :
    (itoa (Int32.ofNat n) [] (Int32.ofNat b)).length = (numeralText b n).length + 1 := by
  rw [itoa_of_base (base_le hlow hhigh), itoaText_ofNat hlow hhigh hn]
  simp

/-- A store of a number that is not negative fits exactly when the number is below the power of the
    base that the array has room for. -/
theorem all_fits_itoaInto {b n size : ℕ} (hlow : 2 ≤ b) (hhigh : b ≤ 36) (hn : n < 2 ^ 31)
    (hsize : 0 < size) (buf : List UInt8) :
    All Fits (itoaInto (size + 1) buf (intArg n) (Int32.ofNat b)) ↔ n < b ^ size := by
  have hall : All Fits (itoaInto (size + 1) buf (intArg n) (Int32.ofNat b)) ↔
      (itoa (Int32.ofNat n) [] (Int32.ofNat b)).length ≤ size + 1 := by
    rw [itoaInto, all_bind, all_emit]
    exact and_iff_left (all_pure _ _)
  rw [hall, length_itoa_nil hlow hhigh hn, Nat.add_le_add_iff_right, length_numeralText,
    Numerals.length_numeral_le_iff hlow hsize]

theorem all_fits_decimal {n size : ℕ} (hn : n < 2 ^ 31) (hsize : 0 < size) (buf : List UInt8) :
    All Fits (itoaInto (size + 1) buf (intArg n) 10) ↔ n < 10 ^ size :=
  all_fits_itoaInto (b := 10) (by decide) (by decide) hn hsize buf

/-! ### `cmd_ifconfig` -/

/-- Every octet of the address has at most two decimal digits. -/
def TwoDigits (addr : Ipv4Addr) : Prop := ∀ octet ∈ addr.toList, octet.toNat ≤ 99

instance (addr : Ipv4Addr) : Decidable (TwoDigits addr) := inferInstanceAs (Decidable (∀ _ ∈ _, _))

theorem all_fits_printMac (mac : MacAddr) (buf : List UInt8) : All Fits (printMac mac buf) := by
  rw [printMac, all_loop]
  intro i _
  have hoctet := (mac.toList.getD i 0).toNat_lt
  have hstore := all_fits_itoaInto (b := 16) (n := (mac.toList.getD i 0).toNat) (by decide) (by decide)
    (by omega) (by decide : 0 < 2)
  rw [all_bind]
  refine ⟨(hstore _).mpr (by omega), ?_⟩
  split <;> split <;> simp

theorem all_fits_printAddr (addr : Ipv4Addr) (buf : List UInt8) :
    All Fits (printAddr addr buf) ↔ TwoDigits addr := by
  have hturn : ∀ i buf, All Fits (do
      let buf ← itoaInto 3 buf (intArg (addr.toList.getD i 0).toNat) 10
      vgaWriteString buf
      if i < 3 then vgaWriteChar 46
      return buf) ↔ (addr.toList.getD i 0).toNat < 100 := by
    intro i buf
    have hoctet := (addr.toList.getD i 0).toNat_lt
    rw [all_bind, all_fits_decimal (by omega) (by decide : 0 < 2)]
    refine and_iff_left ?_
    split <;> simp
  rw [printAddr, all_loop]
  simp only [hturn]
  constructor
  · intro h octet hoctet
    obtain ⟨i, hi, rfl⟩ := List.getElem_of_mem hoctet
    have hlt := h i (by simpa using hi)
    rw [List.getD_eq_getElem _ _ hi] at hlt
    omega
  · intro h i hi
    have hlen : i < addr.toList.length := by simpa using hi
    rw [List.getD_eq_getElem _ _ hlen]
    exact Nat.lt_succ_of_le (h _ (List.getElem_mem hlen))

/-- Every address that `cmd_ifconfig` prints has octets of at most two digits. -/
def ConfigTwoDigits (iface : NetInterface) (config : AddressConfig) : Prop :=
  TwoDigits iface.ipAddr ∧ TwoDigits config.netmask ∧ TwoDigits config.gateway ∧
    TwoDigits config.dns1 ∧ TwoDigits config.dns2

theorem all_fits_cmdIfconfig (s : NetState) (config : AddressConfig) (buf : List UInt8) :
    All Fits (cmdIfconfig s config buf) ↔
      ∀ iface, netGetInterface s (chars "eth0") = some iface → ConfigTwoDigits iface config := by
  rw [cmdIfconfig]
  cases netGetInterface s (chars "eth0") with
  | none => simp
  | some iface =>
    simp [all_fits_printMac, all_fits_printAddr, ConfigTwoDigits]

/-! ### The status code -/

/-- The characters of a status code that `atoi` reads as a negative number: after white space a minus
    sign, and digits that are not all zero. -/
def NegativeCode (code : List UInt8) : Prop :=
  ∃ rest, code.dropWhile isspace = 45 :: rest ∧ ∃ d ∈ rest.takeWhile isdigit, d ≠ 48

/-- `resp->status_code`: the `int` of `atoi` in a `uint16_t`. -/
def statusOf (code : List UInt8) : UInt16 := (atoi (code ++ [0])).toUInt32.toUInt16

theorem decimal_eq_zero_iff {digits : List UInt8} (h : ∀ c ∈ digits, isdigit c = true) :
    decimal digits = 0 ↔ ∀ d ∈ digits, d = 48 := by
  constructor
  · intro hzero d hd
    have hlow := (isdigit_iff.mp (h d hd)).1
    have hmem : d.toNat - 48 ∈ digits.reverse.map fun c => c.toNat - 48 :=
      List.mem_map.mpr ⟨d, List.mem_reverse.mpr hd, rfl⟩
    have hdigit := Nat.digits_zero_of_eq_zero (by decide) hzero _ hmem
    rw [← UInt8.toNat_inj]
    change d.toNat = 48
    omega
  · intro hall
    rw [decimal, List.eq_replicate_of_mem hall, List.reverse_replicate, List.map_replicate]
    exact Nat.ofDigits_replicate_zero

theorem statusCode_of_digits {digits : List UInt8} (h : ∀ c ∈ digits, isdigit c = true)
    (hlength : digits.length ≤ 3) :
    (digits.foldl pushDigit 0 * 1).toUInt32.toUInt16.toNat < 1000 := by
  have hlt := decimal_lt h
  have hpow : 10 ^ digits.length ≤ 10 ^ 3 := Nat.pow_le_pow_right (by decide) hlength
  rw [foldl_pushDigit h, Int32.mul_one, Int32.toUInt32_ofNat', UInt32.toNat_toUInt16,
    UInt32.toNat_ofNat']
  omega

/-- A number with its sign changed has five digits in the 16-bit field, unless it is zero. -/
theorem statusCode_of_minus {digits : List UInt8} (h : ∀ c ∈ digits, isdigit c = true)
    (hlength : digits.length ≤ 3) :
    (digits.foldl pushDigit 0 * -1).toUInt32.toUInt16.toNat < 1000 ↔ ∀ d ∈ digits, d = 48 := by
  have hlt := decimal_lt h
  have hpow : 10 ^ digits.length ≤ 10 ^ 3 := Nat.pow_le_pow_right (by decide) hlength
  rw [← decimal_eq_zero_iff h, foldl_pushDigit h, Int32.mul_neg, Int32.mul_one, Int32.toUInt32_neg,
    Int32.toUInt32_ofNat', UInt32.toNat_toUInt16, UInt32.toNat_neg, UInt32.toNat_ofNat']
  change (4294967296 - decimal digits % 4294967296) % 4294967296 % 65536 < 1000 ↔ _
  omega

theorem isdigit_of_mem_takeWhile {s : List UInt8} : ∀ c ∈ s.takeWhile isdigit, isdigit c = true :=
  fun _ hc => List.mem_takeWhile_imp hc

theorem takeWhile_isdigit_nul (s : List UInt8) :
    (s ++ [0]).takeWhile isdigit = s.takeWhile isdigit := by
  rw [List.takeWhile_append]
  split
  next hlength =>
    rw [(List.takeWhile_prefix isdigit).eq_of_length hlength]
    exact List.append_nil s
  next => rfl

theorem dropWhile_isspace_nul (s : List UInt8) :
    (s ++ [0]).dropWhile isspace = s.dropWhile isspace ++ [0] := by
  rw [List.dropWhile_append]
  split
  next hempty =>
    rw [List.isEmpty_iff.mp hempty]
    rfl
  next => rfl

/-- The status code of three characters has at most three digits unless they hold a negative number. -/
theorem statusOf_lt_iff {code : List UInt8} (hcode : code.length ≤ 3) :
    (statusOf code).toNat < 1000 ↔ ¬ NegativeCode code := by
  have hlen := (List.dropWhile_suffix (l := code) isspace).length_le
  rw [statusOf, atoi, dropWhile_isspace_nul, NegativeCode]
  cases hrest : code.dropWhile isspace with
  | nil => simp; decide
  | cons c rest =>
    rw [hrest, List.length_cons] at hlen
    have hdigits : (rest.takeWhile isdigit).length ≤ 3 :=
      (List.takeWhile_prefix isdigit).length_le.trans (by omega)
    rw [List.cons_append]
    dsimp only
    by_cases hminus : c = 45
    · subst hminus
      rw [if_pos rfl, takeWhile_isdigit_nul, statusCode_of_minus isdigit_of_mem_takeWhile hdigits]
      simp
    -- without a minus sign the number is not negative
    · have hnone : ¬ ∃ rest', c :: rest = 45 :: rest' ∧ ∃ d ∈ rest'.takeWhile isdigit, d ≠ 48 := by
        rintro ⟨rest', heq, -⟩
        exact hminus (List.cons_eq_cons.mp heq).1
      refine iff_of_true ?_ hnone
      rw [if_neg hminus]
      split
      · rw [takeWhile_isdigit_nul]
        exact statusCode_of_digits isdigit_of_mem_takeWhile hdigits
      · rw [← List.cons_append, takeWhile_isdigit_nul]
        refine statusCode_of_digits isdigit_of_mem_takeWhile ?_
        exact (List.takeWhile_prefix isdigit).length_le.trans (by rw [List.length_cons]; omega)

/-! ### Responses that the parser accepts -/

section
variable {buf : ℕ → UInt8}

/-- A skip that stays inside the buffer ends at the first such byte. -/
theorem skipTo_found {c : UInt8} {buflen i : ℕ} (h : (skipTo buf buflen c i).val < buflen)
    (hi : i ≤ buflen) : buf (skipTo buf buflen c i).val = c ∧
      ∀ k, i ≤ k → k < (skipTo buf buflen c i).val → buf k ≠ c := by
  obtain ⟨left, hleft⟩ := Nat.exists_eq_add_of_le hi
  induction left generalizing i with
  | zero =>
    have hbounds : i ≤ (skipTo buf buflen c i).val := (skipTo_bounds c hi).1
    omega
  | succ left ih =>
    have hval : (skipTo buf buflen c i).val =
        if buf i ≠ c then (skipTo buf buflen c (i + 1)).val else i := skipTo_of_lt (by omega)
    by_cases hc : buf i = c
    · rw [if_neg (not_not.mpr hc)] at hval
      rw [hval]
      exact ⟨hc, fun k hik hk => absurd hk (by omega)⟩
    · rw [if_pos hc] at hval
      rw [hval] at h ⊢
      obtain ⟨hfound, hbefore⟩ := ih h (by omega) (by omega)
      refine ⟨hfound, fun k hik hk => ?_⟩
      rcases Nat.eq_or_lt_of_le hik with rfl | hlt
      · exact hc
      · exact hbefore k hlt hk

theorem statusCode_takeBody (s : NetState) (buflen i : ℕ) (resp : HttpResponse) :
    (takeBody buf s buflen i resp).val.2.1.statusCode = resp.statusCode := by
  rw [takeBody]
  dsimp only
  split <;> rfl

/-- `i` is the first space of the response. -/
def FirstSpace (buf : ℕ → UInt8) (i : ℕ) : Prop := buf i = 32 ∧ ∀ k < i, buf k ≠ 32

theorem FirstSpace.unique {i j : ℕ} (hi : FirstSpace buf i) (hj : FirstSpace buf j) : i = j := by
  rcases Nat.lt_trichotomy i j with hlt | heq | hgt
  · exact absurd hi.1 (hj.2 i hlt)
  · exact heq
  · exact absurd hj.1 (hi.2 j hgt)

/-- The status code of an accepted response is that of the three bytes after its first space. -/
theorem statusCode_of_accepted {s : NetState} {buflen : UInt16} {resp : HttpResponse}
    (h : (httpClientParseResponse buf s buflen resp).val.1 = 0) :
    ∃ i, FirstSpace buf i ∧ (httpClientParseResponse buf s buflen resp).val.2.1.statusCode =
      statusOf [buf (i + 1), buf (i + 2), buf (i + 3)] := by
  rw [httpClientParseResponse] at h ⊢
  dsimp only at h ⊢
  by_cases hshort : buflen.toNat < 12
  · rw [if_pos hshort] at h
    cases h
  rw [if_neg hshort, val_bind] at h ⊢
  by_cases hnone : (skipTo buf buflen.toNat 32 0).val ≥ buflen.toNat
  · rw [if_pos hnone] at h
    cases h
  rw [if_neg hnone] at h ⊢
  by_cases hcut : (skipTo buf buflen.toNat 32 0).val + 1 + 3 > buflen.toNat
  · rw [if_pos hcut] at h
    cases h
  obtain ⟨hspace, hbefore⟩ := skipTo_found (not_le.mp hnone) (Nat.zero_le _)
  refine ⟨(skipTo buf buflen.toNat 32 0).val, ⟨hspace, fun k hk => hbefore k (Nat.zero_le k) hk⟩, ?_⟩
  rw [if_neg hcut] at h ⊢
  simp only [val_bind] at h ⊢
  split at h
  next => cases h
  next hline =>
    rw [if_neg hline, val_bind, statusCode_takeBody]
    rfl

end

/-! ### `cmd_wget` -/

/-- A request that is answered by the response in `buf`, if the parser accepts it. -/
def answered (buf : ℕ → UInt8) (buflen : UInt16) (s : Sockets) :
    Traced CmdEvent (ℤ × HttpResponse × Sockets) :=
  let r := (httpClientParseResponse buf s.net buflen clearedResponse).val
  return (r.1, r.2.1, { s with net := r.2.2 })

/-- The arguments are a command and a URL that `cmd_wget` goes on with. -/
def TakesUrl (argv : List (List UInt8)) : Prop :=
  2 ≤ argv.length ∧ strncmp (argv.getD 1 []) (chars "http://") 7 = 0

theorem all_fits_wgetReport (s : Sockets) (resp : HttpResponse) (statusStr : List UInt8) :
    All Fits (wgetReport s resp statusStr) ↔ resp.statusCode.toNat < 1000 := by
  have hcode := resp.statusCode.toNat_lt
  have hstore := all_fits_decimal (n := resp.statusCode.toNat) (by omega) (by decide : 0 < 3) statusStr
  rw [wgetReport, all_bind, all_bind, hstore]
  refine ⟨fun h => h.2.1, fun h => ⟨all_fits_vgaWriteString _, h, ?_⟩⟩
  split
  · simp [all_loop]
  · simp

theorem all_fits_cmdWgetWith {s : Sockets} {argv : List (List UInt8)} {buf : ℕ → UInt8}
    {buflen : UInt16} (portstr statusStr : List UInt8)
    (haccept : (httpClientParseResponse buf s.net buflen clearedResponse).val.1 = 0) :
    All Fits (cmdWgetWith (fun _ _ _ => answered buf buflen s) s argv portstr statusStr) ↔
      (TakesUrl argv → ∀ i, FirstSpace buf i →
        ¬ NegativeCode [buf (i + 1), buf (i + 2), buf (i + 3)]) := by
  obtain ⟨i, hspace, hstatus⟩ := statusCode_of_accepted haccept
  have hcode : (∀ j, FirstSpace buf j → ¬ NegativeCode [buf (j + 1), buf (j + 2), buf (j + 3)]) ↔
      (statusOf [buf (i + 1), buf (i + 2), buf (i + 3)]).toNat < 1000 := by
    rw [statusOf_lt_iff (by simp)]
    exact ⟨fun h => h i hspace, fun h j hj => hj.unique hspace ▸ h⟩
  rw [hcode, ← hstatus]
  match argv with
  | [] => simp [cmdWgetWith, TakesUrl]
  | [_] => simp [cmdWgetWith, TakesUrl]
  | command :: url :: others =>
    have htakes : TakesUrl (command :: url :: others) ↔ strncmp url (chars "http://") 7 = 0 :=
      and_iff_right (by simp)
    rw [htakes, cmdWgetWith]
    by_cases hurl : strncmp url (chars "http://") 7 = 0
    · have hport := (splitUrl (url.drop 7)).port.toNat_lt
      have hstore := all_fits_decimal (n := (splitUrl (url.drop 7)).port.toNat) (by omega)
        (by decide : 0 < 5) portstr
      have hresult : ¬ (answered buf buflen s).val.1 < 0 := by
        change ¬ (httpClientParseResponse buf s.net buflen clearedResponse).val.1 < 0
        rw [haccept]
        decide
      have hquiet : All Fits (answered buf buflen s) := all_pure _ _
      rw [if_pos hurl]
      simp only [all_bind, all_fits_vgaWriteString, hstore, hquiet, if_neg hresult,
        all_fits_wgetReport, all_pure, and_true, true_and, hurl, true_imp_iff]
      exact and_iff_right (by omega)
    · simp [hurl]

/-- CORRECT: with an accepted response at hand, all that the two commands store fits exactly when no
    octet of the addresses has three digits and the status code of the response is not negative. -/
theorem display_buffers_fit_iff (net : NetState) (config : AddressConfig) (macBuf : List UInt8)
    (s : Sockets) (argv : List (List UInt8)) (portstr statusStr : List UInt8) (buf : ℕ → UInt8)
    (buflen : UInt16)
    (haccept : (httpClientParseResponse buf s.net buflen clearedResponse).val.1 = 0) :
    (All Fits (cmdIfconfig net config macBuf) ∧
      All Fits (cmdWgetWith (fun _ _ _ => answered buf buflen s) s argv portstr statusStr)) ↔
      (∀ iface, netGetInterface net (chars "eth0") = some iface → ConfigTwoDigits iface config) ∧
        (TakesUrl argv → ∀ i, FirstSpace buf i →
          ¬ NegativeCode [buf (i + 1), buf (i + 2), buf (i + 3)]) := by
  rw [all_fits_cmdIfconfig, all_fits_cmdWgetWith portstr statusStr haccept]

/-- The further addresses that `rtl8139_init` sets. -/
def sampleConfig : AddressConfig where
  netmask := netSetIpaddrBytes 255 255 255 0
  gateway := netSetIpaddrBytes 192 168 1 1
  dns1 := netSetIpaddrBytes 8 8 8 8
  dns2 := netSetIpaddrBytes 8 8 4 4

/-- A network with short addresses: 10.0.2.15 in 10.0.0.0. -/
def shortHost : NetState :=
  { sampleHost with
    interfaces := sampleHost.interfaces.map fun iface =>
      { iface with ipAddr := netSetIpaddrBytes 10 0 2 15 } }

def shortConfig : AddressConfig where
  netmask := netSetIpaddrBytes 0 0 0 0
  gateway := netSetIpaddrBytes 10 0 2 2
  dns1 := netSetIpaddrBytes 8 8 8 8
  dns2 := netSetIpaddrBytes 8 8 4 4

/-- A response with the given status line and nothing else. -/
def statusResponse (line : String) (i : ℕ) : UInt8 := (chars line ++ [10, 10]).getD i 0

def wgetHost : List (List UInt8) := [chars "wget", chars "http://h"]

theorem display_buffers_fit_short :
    let response := statusResponse "HTTP/1.0 200 OK"
    let sockets := staticSockets shortHost
    (httpClientParseResponse response shortHost 17 clearedResponse).val.1 = 0 ∧
      ((All Fits (cmdIfconfig shortHost shortConfig [0, 0, 0]) ∧
        All Fits (cmdWgetWith (fun _ _ _ => answered response 17 sockets) sockets wgetHost [] [])) ↔
        (∀ iface, netGetInterface shortHost (chars "eth0") = some iface →
          ConfigTwoDigits iface shortConfig) ∧
          (TakesUrl wgetHost → ∀ i, FirstSpace response i →
            ¬ NegativeCode [response (i + 1), response (i + 2), response (i + 3)])) :=
  ⟨by decide +kernel, display_buffers_fit_iff shortHost shortConfig [0, 0, 0] (staticSockets shortHost)
    wgetHost [] [] (statusResponse "HTTP/1.0 200 OK") 17 (by decide +kernel)⟩

/-- The address of `eth0` runs over the three characters of `cmd_ifconfig`, and the status `-20` over
    the four of `cmd_wget`. -/
theorem display_buffers_overrun :
    CmdEvent.store 3 (chars "192" ++ [0]) ∈ (cmdIfconfig sampleHost sampleConfig [0, 0, 0]).events ∧
      ¬ All Fits (cmdIfconfig sampleHost sampleConfig [0, 0, 0]) ∧
      (httpClientParseResponse (statusResponse "HTTP/1.0 -20 OK") sampleHost 17
        clearedResponse).val.1 = 0 ∧
      CmdEvent.store 4 (chars "65516" ++ [0]) ∈
        (cmdWgetWith (fun _ _ _ => answered (statusResponse "HTTP/1.0 -20 OK") 17
          (staticSockets sampleHost)) (staticSockets sampleHost) wgetHost [] []).events := by
  have hstore : CmdEvent.store 3 (chars "192" ++ [0]) ∈
      (cmdIfconfig sampleHost sampleConfig [0, 0, 0]).events := by decide +kernel
  refine ⟨hstore, fun h => ?_, by decide +kernel, by decide +kernel⟩
  have hsize : 4 ≤ 3 := h _ hstore
  omega

end VlsOs.Net
