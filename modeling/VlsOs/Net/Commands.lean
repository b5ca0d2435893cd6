import VlsOs.Net.HttpGet

/-! The network commands of the shell (`cmd_ifconfig`, `cmd_ping` and `cmd_wget` of `net/netcmd.c`).

    `argv` is the list of the arguments, so `argc` is its length; a local array starts with whatever is
    on the stack. `itoa` is given the start of an array and nothing about its size:

        cmd_ifconfig   char buf[3]            an octet, base 16 or 10
        cmd_wget       char portstr[6]        the port
                       char status_str[4]     the status code -/

namespace VlsOs.Net
open Patterns.Trace VlsOs.Memory VlsOs.Libc VlsOs.Net.Sock VlsOs.Net.Http VlsOs.Shell

/-! ### `ifconfig` -/

/-- The further addresses of a `net_interface_t`. -/
structure AddressConfig where
  netmask : Ipv4Addr
  gateway : Ipv4Addr
  dns1 : Ipv4Addr
  dns2 : Ipv4Addr

/-- A `uint8_t` or `uint16_t` as the `int` it is passed as. -/
def intArg (n : ℕ) : Int32 := Int32.ofNat n

/-- The loop that prints a MAC address, through the array `buf` of three characters. -/
def printMac (mac : MacAddr) (buf : List UInt8) : Traced CmdEvent (List UInt8) :=
  loop (fun i buf => do
    let buf ← itoaInto 3 buf (intArg (mac.toList.getD i 0).toNat) 16
    if buf.getD 1 0 = 0 then vgaWriteChar 48
    vgaWriteString buf
    if i < 5 then vgaWriteChar 58
    return buf) 6 buf

/-- The loop that prints an address, through the same array. -/
def printAddr (addr : Ipv4Addr) (buf : List UInt8) : Traced CmdEvent (List UInt8) :=
  loop (fun i buf => do
    let buf ← itoaInto 3 buf (intArg (addr.toList.getD i 0).toNat) 10
    vgaWriteString buf
    if i < 3 then vgaWriteChar 46
    return buf) 4 buf

def cmdIfconfig (s : NetState) (config : AddressConfig) (buf : List UInt8) : Traced CmdEvent ℤ :=
  match netGetInterface s (chars "eth0") with
  | none => do
    vgaWriteString (chars "No network interface found\n")
    return 0
  | some iface => do
    vgaWriteString (chars "eth0: ")
    vgaWriteString (chars "MAC=")
    let buf ← printMac iface.macAddr buf
    vgaWriteString (chars "\n")
    vgaWriteString (chars "      inet ")
    let buf ← printAddr iface.ipAddr buf
    vgaWriteString (chars " ")
    vgaWriteString (chars "netmask ")
    let buf ← printAddr config.netmask buf
    vgaWriteString (chars "\n")
    vgaWriteString (chars "      gateway ")
    let buf ← printAddr config.gateway buf
    vgaWriteString (chars "\n")
    vgaWriteString (chars "      dns1 ")
    let buf ← printAddr config.dns1 buf
    vgaWriteString (chars " dns2 ")
    let _ ← printAddr config.dns2 buf
    vgaWriteString (chars "\n")
    return 0

/-! ### `ping` -/

/-- `cmd_ping`, once the address is known. -/
def pingHost (s : NetState) (arg : List UInt8) (addr : Ipv4Addr) : Traced CmdEvent (ℤ × NetState) := do
  vgaWriteString (chars "PING ")
  vgaWriteString arg
  vgaWriteString (chars "\n")
  let s ← relabel .net (icmpSendEchoRequest s addr)
  return (0, s)

def cmdPing (s : NetState) (argv : List (List UInt8)) : Traced CmdEvent (ℤ × NetState) :=
  match argv with
  | _ :: arg :: _ =>
    match pingAddress arg with
    | none => do
      vgaWriteString (chars "Invalid IP address\n")
      return (0, s)
    | some addr => pingHost s arg addr
  | _ => do
    vgaWriteString (chars "Usage: ping <ip_address>\n")
    return (0, s)

/-! ### `wget` -/

/-- What `cmd_wget` takes a URL apart into. -/
structure UrlParts where
  host : List UInt8
  port : UInt16
  path : List UInt8

/-- The URL after `"http://"`: the host in an array of 64 characters, at most five digits of the port,
    and the path. -/
def splitUrl (hostStart : List UInt8) : UrlParts :=
  let url := text hostStart
  let host := (url.takeWhile fun c => c ≠ 58 ∧ c ≠ 47).take 63
  let rest := url.drop host.length
  let digits :=
    if rest.headD 0 = 58 then
      ((rest.drop 1).takeWhile fun c => 48 ≤ promote c ∧ promote c ≤ 57).take 5
    else []
  let port := if digits.length > 0 then (atoi (digits ++ [0])).toUInt32.toUInt16 else 80
  let rest := if rest.headD 0 = 58 then rest.drop (1 + digits.length) else rest
  ⟨host, port, if rest.headD 0 = 47 then rest else chars "/"⟩

/-- `cmd_wget` after a request that has been answered: the status code, and the body from memory. -/
def wgetReport (s : Sockets) (resp : HttpResponse) (statusStr : List UInt8) :
    Traced CmdEvent Sockets := do
  vgaWriteString (chars "Status: ")
  let statusStr ← itoaInto 4 statusStr (intArg resp.statusCode.toNat) 10
  vgaWriteString statusStr
  vgaWriteString (chars "\n")
  if resp.body ≠ null then do
    vgaWriteString (chars "Content:\n")
    vgaWriteString (chars "---\n")
    loop (fun j _ => vgaWriteChar (s.net.mem (resp.body + j.toUInt32))) resp.bodyLen.toNat ()
    vgaWriteString (chars "\n---\n")
    return (httpClientFree s resp).2
  else return s

/-- `cmd_wget`, where `get` is what `http_client_get` does for a host, a port and a path. -/
def cmdWgetWith (get : List UInt8 → UInt16 → List UInt8 → Traced CmdEvent (ℤ × HttpResponse × Sockets))
    (s : Sockets) (argv : List (List UInt8)) (portstr statusStr : List UInt8) :
    Traced CmdEvent (ℤ × Sockets) :=
  match argv with
  | _ :: url :: _ =>
    if strncmp url (chars "http://") 7 = 0 then do
      let parts := splitUrl (url.drop 7)
      vgaWriteString (chars "Fetching ")
      vgaWriteString parts.host
      vgaWriteString (chars ":")
      let portstr ← itoaInto 6 portstr (intArg parts.port.toNat) 10
      vgaWriteString portstr
      vgaWriteString parts.path
      vgaWriteString (chars " ...\n")
      let (result, resp, s) ← get parts.host parts.port parts.path
      if result < 0 then return (1, s)
      else do
        let s ← wgetReport s resp statusStr
        return (0, s)
    else do
      vgaWriteString (chars "Only http:// URLs supported\n")
      return (1, s)
  | _ => do
    vgaWriteString (chars "Usage: wget <url>\n")
    vgaWriteString (chars "Example: wget http://192.168.1.100/\n")
    return (1, s)

def cmdWget (s : Sockets) (argv : List (List UInt8)) (portstr statusStr : List UInt8)
    (responseBuf : ℕ → UInt8) : Traced CmdEvent (ℤ × Sockets) :=
  cmdWgetWith (fun host port path => httpClientGet s host port (some path) responseBuf) s argv
    portstr statusStr

/-! ### Addresses that the commands take -/

/-- CORRECT: the dotted text of every address is taken by both parsers, and what is done afterwards is
    done for that address. -/
theorem dotted_addresses_accepted (addr : Ipv4Addr) :
    (pingAddress (dottedQuad addr) = some addr ∧
      ∀ (s : NetState) (command : List UInt8) (others : List (List UInt8)),
        cmdPing s (command :: dottedQuad addr :: others) = pingHost s (dottedQuad addr) addr) ∧
    (hostAddress (dottedQuad addr) = some addr ∧
      ∀ (s : Sockets) (port : UInt16) (path : Option (List UInt8)) (responseBuf : ℕ → UInt8),
        httpClientGet s (dottedQuad addr) port path responseBuf =
          httpExchange s addr (dottedQuad addr) port path responseBuf) := by
  refine ⟨⟨pingAddress_dottedQuad addr, fun s command others => ?_⟩,
    hostAddress_dottedQuad addr, fun s port path responseBuf => ?_⟩
  · rw [cmdPing, pingAddress_dottedQuad]
  · rw [httpClientGet, hostAddress_dottedQuad]

end VlsOs.Net
