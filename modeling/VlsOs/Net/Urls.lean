import VlsOs.Net.AddressForm
import VlsOs.Net.Inside

/-! What `cmd_wget` fetches (`net/netcmd.c`).

    Host, port and path are cut out of the URL by three scans that share one index. Each scan stops at
    its bound as it does at the end of its component, and the next one starts where it stopped.

        http://host:port/path      host[64]       63 characters of the host
               ▲   ▲   ▲           port_str[6]    5 digits of the port
               i ───────────▶ -/

namespace VlsOs.Net
open Patterns.Trace VlsOs.Libc VlsOs.Net.Sock VlsOs.Net.Http VlsOs.Shell

/-! ### URLs -/

/-- A URL `http://host[:port][/path]`; `path` is what stands behind the slash. -/
structure Url where
  host : List UInt8
  port : Option (List UInt8)
  path : Option (List UInt8)
  host_ne_nil : host ≠ []
  host_clean : ∀ c ∈ host, c ≠ 58 ∧ c ≠ 47 ∧ c ≠ 0
  port_digits : ∀ digits, port = some digits → digits ≠ [] ∧ ∀ c ∈ digits, isdigit c = true
  path_clean : ∀ rest, path = some rest → 0 ∉ rest

namespace Url
variable (u : Url)

/-- The part from the slash on. -/
def slashPart : List UInt8 := u.path.elim [] (47 :: ·)

/-- The part from the colon on. -/
def colonPart : List UInt8 := u.port.elim u.slashPart fun digits => 58 :: (digits ++ u.slashPart)

/-- The characters of the URL. -/
def spelled : List UInt8 := chars "http://" ++ (u.host ++ u.colonPart)

/-- The port as a number, 80 if there is none. -/
def portNumber : ℕ := u.port.elim 80 decimal

/-- The path, `/` if there is none. -/
def pathText : List UInt8 := 47 :: u.path.getD []

/-- The bounds of the scans do not matter: the host fits its array, and the port is a 16-bit number of
    five digits at most (or zero, with nothing behind it that could be lost). -/
def Fits : Prop :=
  u.host.length ≤ 63 ∧ ∀ digits, u.port = some digits → decimal digits < 65536 ∧
    (digits.length ≤ 5 ∨ decimal digits = 0 ∧ u.pathText = [47])

end Url

/-- Whatever `http_client_get` does, `cmd_wget` calls it for this host, port and path, or not at all. -/
def CallsFor (s : Sockets) (argv : List (List UInt8)) (portstr statusStr : List UInt8)
    (host : List UInt8) (port : UInt16) (path : List UInt8) : Prop :=
  ∀ get, cmdWgetWith get s argv portstr statusStr =
    cmdWgetWith (fun _ _ _ => get host port path) s argv portstr statusStr

/-! ### The three scans -/

section Scans
variable (u : Url)

theorem headD_slashPart : u.slashPart.headD 0 = if u.path.isSome then 47 else 0 := by
  unfold Url.slashPart
  cases u.path <;> rfl

/-- The path is what starts at the slash. -/
theorem path_scan : (if u.slashPart.headD 0 = 47 then u.slashPart else chars "/") = u.pathText := by
  unfold Url.slashPart Url.pathText
  cases u.path <;> rfl

/-- The host ends at the first colon or slash. -/
theorem host_scan : (u.host ++ u.colonPart).takeWhile (fun c => c ≠ 58 ∧ c ≠ 47) = u.host := by
  have hhost : ∀ c ∈ u.host, decide (c ≠ 58 ∧ c ≠ 47) = true := fun c hc =>
    decide_eq_true ⟨(u.host_clean c hc).1, (u.host_clean c hc).2.1⟩
  have hrest : u.colonPart.takeWhile (fun c => c ≠ 58 ∧ c ≠ 47) = [] := by
    unfold Url.colonPart Url.slashPart
    cases u.port <;> cases u.path <;> rfl
  rw [List.takeWhile_append_of_pos hhost, hrest, List.append_nil]

/-- The port ends at the first character that is no digit. -/
theorem port_scan {digits : List UInt8} (h : u.port = some digits) :
    (digits ++ u.slashPart).takeWhile (fun c => 48 ≤ promote c ∧ promote c ≤ 57) = digits := by
  have hdigits : ∀ c ∈ digits, decide (48 ≤ promote c ∧ promote c ≤ 57) = true := fun c hc =>
    (hostDigit_eq c).trans ((u.port_digits digits h).2 c hc)
  have hrest : u.slashPart.takeWhile (fun c => 48 ≤ promote c ∧ promote c ≤ 57) = [] := by
    unfold Url.slashPart
    cases u.path <;> rfl
  rw [List.takeWhile_append_of_pos hdigits, hrest, List.append_nil]

theorem no_nul_slashPart : 0 ∉ u.slashPart := by
  unfold Url.slashPart
  cases hpath : u.path with
  | none => exact List.not_mem_nil
  | some rest => simpa using u.path_clean rest hpath

theorem no_nul_colonPart : 0 ∉ u.colonPart := by
  have hslash := no_nul_slashPart u
  unfold Url.colonPart
  cases hport : u.port with
  | none => exact hslash
  | some digits =>
    have hdigits : 0 ∉ digits := fun hmem =>
      absurd ((u.port_digits digits hport).2 0 hmem) (by decide)
    simp [hdigits, hslash]

theorem text_spelled : text (u.host ++ u.colonPart) = u.host ++ u.colonPart := by
  refine text_of_no_nul fun hmem => ?_
  rcases List.mem_append.mp hmem with hhost | hrest
  · exact (u.host_clean 0 hhost).2.2 rfl
  · exact no_nul_colonPart u hrest

/-- What is left behind the port: digits beyond the fifth, and the path. -/
theorem drop_port (digits rest : List UInt8) :
    (58 :: (digits ++ rest)).drop (1 + (digits.take 5).length) = digits.drop 5 ++ rest := by
  rw [Nat.add_comm, List.drop_succ_cons]
  rcases Nat.lt_or_ge 5 digits.length with hlong | hshort
  · rw [List.length_take_of_le hlong.le, List.drop_append_of_le_length hlong.le]
  · rw [List.take_of_length_le hshort, List.drop_left, List.drop_of_length_le hshort,
      List.nil_append]

/-- The path behind a port: it is missed if the scan stopped at a digit. -/
theorem path_behind_port {digits : List UInt8} (hdigits : ∀ c ∈ digits, isdigit c = true) :
    (if (digits.drop 5 ++ u.slashPart).headD 0 = 47 then digits.drop 5 ++ u.slashPart
      else chars "/") = if digits.length ≤ 5 then u.pathText else [47] := by
  by_cases hshort : digits.length ≤ 5
  · rw [if_pos hshort, List.drop_of_length_le hshort, List.nil_append, path_scan]
  · have hdrop : digits.drop 5 ≠ [] := by
      rw [ne_eq, List.drop_eq_nil_iff]
      exact hshort
    obtain ⟨c, rest, hrest⟩ := List.exists_cons_of_ne_nil hdrop
    have hc : isdigit c = true := hdigits c (List.mem_of_mem_drop (hrest ▸ List.mem_cons_self))
    rw [if_neg hshort, hrest, List.cons_append, List.headD_cons, if_neg (ne_of_isdigit hc rfl)]
    rfl

/-- A host that is too long is cut. -/
theorem splitUrl_host : (splitUrl (u.host ++ u.colonPart)).host = u.host.take 63 := by
  rw [splitUrl, text_spelled, host_scan]

/-- What the scans make of a URL whose host fits: five digits of the port, and the path if the digits
    end there. -/
theorem splitUrl_eq (hhost : u.host.length ≤ 63) :
    splitUrl (u.host ++ u.colonPart) = match u.port with
      | none => ⟨u.host, 80, u.pathText⟩
      | some digits => ⟨u.host, UInt16.ofNat (decimal (digits.take 5)),
          if digits.length ≤ 5 then u.pathText else [47]⟩ := by
  rw [splitUrl, text_spelled, host_scan, List.take_of_length_le hhost, List.drop_left]
  cases hport : u.port with
  | none =>
    have hcolon : u.colonPart = u.slashPart := by rw [Url.colonPart, hport]; rfl
    have hhead : ¬u.slashPart.headD 0 = 58 := by
      rw [headD_slashPart]
      split <;> decide
    rw [hcolon, if_neg hhead, if_neg hhead, path_scan]
    rfl
  | some digits =>
    have hcolon : u.colonPart = 58 :: (digits ++ u.slashPart) := by rw [Url.colonPart, hport]; rfl
    obtain ⟨hne, hdigits⟩ := u.port_digits digits hport
    have hpos : (digits.take 5).length > 0 := by
      have hlen := List.length_pos_of_ne_nil hne
      rw [List.length_take]
      omega
    have hatoi : atoi (digits.take 5 ++ [0]) = Int32.ofNat (decimal (digits.take 5)) :=
      atoi_digits fun c hc => hdigits c (List.mem_of_mem_take hc)
    have hcast : (Int32.ofNat (decimal (digits.take 5))).toUInt32.toUInt16 =
        UInt16.ofNat (decimal (digits.take 5)) := by simp
    have hscan := port_scan u hport
    have hhead : (58 :: (digits ++ u.slashPart)).headD 0 = 58 := rfl
    rw [hcolon]
    simp only [if_pos hhead, List.drop_one, List.tail_cons, hscan, if_pos hpos, hatoi, hcast,
      drop_port, path_behind_port u hdigits]

end Scans

/-! ### The call -/

/-- `cmd_wget` calls `http_client_get` with what the scans give. -/
theorem callsFor_iff {s : Sockets} {command url : List UInt8} {others : List (List UInt8)}
    (hurl : strncmp url (chars "http://") 7 = 0) (portstr statusStr host : List UInt8) (port : UInt16)
    (path : List UInt8) :
    CallsFor s (command :: url :: others) portstr statusStr host port path ↔
      splitUrl (url.drop 7) = ⟨host, port, path⟩ := by
  constructor
  · intro h
    -- a client that does something only for the expected call
    let get (h : List UInt8) (p : UInt16) (q : List UInt8) :
        Traced CmdEvent (ℤ × HttpResponse × Sockets) :=
      if h = host ∧ p = port ∧ q = path then do
        vgaWriteChar 0
        return (-1, clearedResponse, s)
      else return (-1, clearedResponse, s)
    have hevents := congrArg (fun x => x.events.length) (h get)
    by_contra hne
    have hparts : ¬((splitUrl (url.drop 7)).host = host ∧ (splitUrl (url.drop 7)).port = port ∧
        (splitUrl (url.drop 7)).path = path) := fun heq => hne (by rw [← heq.1, ← heq.2.1, ← heq.2.2])
    simp [cmdWgetWith, hurl, get, hparts, vgaWriteChar] at hevents
  · intro h get
    simp only [cmdWgetWith, if_pos hurl, h]

theorem strncmp_spelled (u : Url) : strncmp u.spelled (chars "http://") 7 = 0 := rfl

/-- EXACT: `cmd_wget` fetches a URL as it is written exactly when none of the bounds matters. -/
theorem wget_fetches_iff (u : Url) (s : Sockets) (command : List UInt8) (others : List (List UInt8))
    (portstr statusStr : List UInt8) :
    (∃ port : UInt16, port.toNat = u.portNumber ∧
      CallsFor s (command :: u.spelled :: others) portstr statusStr u.host port u.pathText) ↔
      u.Fits := by
  have hdrop : u.spelled.drop 7 = u.host ++ u.colonPart := List.drop_left' (by decide)
  simp only [callsFor_iff (strncmp_spelled u), hdrop]
  rcases Nat.lt_or_ge 63 u.host.length with hlong | hshort
  · refine iff_of_false ?_ fun h => absurd h.1 (by omega)
    rintro ⟨port, _, hparts⟩
    have hhost := (splitUrl_host u).symm.trans (congrArg UrlParts.host hparts)
    have hlen := congrArg List.length hhost
    rw [List.length_take] at hlen
    dsimp only at hlen
    omega
  · rw [Url.Fits, and_iff_right hshort, splitUrl_eq u hshort, Url.portNumber]
    cases hport : u.port with
    | none => simp
    | some digits =>
      have hvalue := decimal_take_iff digits 5 (show 0 < 65536 by decide)
      simp only [UrlParts.mk.injEq, true_and, Option.some.injEq, forall_eq', Option.elim_some]
      constructor
      · rintro ⟨port, hnumber, rfl, hpath⟩
        rw [UInt16.toNat_ofNat'] at hnumber
        obtain ⟨hlt, hcut⟩ := hvalue.mp hnumber.symm
        by_cases hshort : digits.length ≤ 5
        · exact ⟨hlt, .inl hshort⟩
        · rw [if_neg hshort] at hpath
          exact ⟨hlt, .inr ⟨hcut.resolve_left hshort, hpath.symm⟩⟩
      · rintro ⟨hlt, hcut⟩
        refine ⟨_, ?_, rfl, ?_⟩
        · rw [UInt16.toNat_ofNat']
          exact (hvalue.mpr ⟨hlt, hcut.imp_right And.left⟩).symm
        · split
          · rfl
          · rename_i hlong
            exact (hcut.resolve_left hlong).2.symm

/-- `http://10.0.0.2:65616`, with a port above those of 16 bits. -/
def highPort : Url where
  host := chars "10.0.0.2"
  port := some (chars "65616")
  path := none
  host_ne_nil := by decide
  host_clean := by decide +kernel
  port_digits _ h := Option.some_inj.mp h ▸ by decide +kernel
  path_clean _ h := by cases h

/-- The port 65616 comes out as 80, and the request goes there. -/
theorem high_port_wraps :
    highPort.portNumber = 65616 ∧
      CallsFor (staticSockets sampleHost) [chars "wget", highPort.spelled] [] []
        (chars "10.0.0.2") 80 (chars "/") ∧
      ¬∃ port : UInt16, port.toNat = highPort.portNumber ∧
        CallsFor (staticSockets sampleHost) [chars "wget", highPort.spelled] [] []
          highPort.host port highPort.pathText := by
  have hnumber : highPort.portNumber = 65616 := by decide +kernel
  refine ⟨hnumber, ?_, ?_⟩
  · rw [callsFor_iff (strncmp_spelled highPort)]
    rfl
  · rintro ⟨port, hport, _⟩
    have hlt := port.toNat_lt
    omega

end VlsOs.Net
