import VlsOs.Net.AddressText
import VlsOs.Net.HttpClient
import VlsOs.Net.Socket
import VlsOs.Shell.Console

/-! A request of the HTTP client (`http_client_get` of `net/http_client.c`).

    The host is parsed as a dotted address; then a stream socket is opened and connected, the request
    is sent, one answer is received and parsed. Each step that fails prints a line of its own and ends
    the request.

    `recv` copies nothing, so the answer is whatever stands in the local buffer (`responseBuf`). -/

namespace VlsOs.Net.Http
open Patterns.Trace VlsOs.Memory VlsOs.Libc VlsOs.Net.Sock VlsOs.Shell

/-- The text that the calls of `strcpy` put together in `request`; a NULL path stands for `"/"`. -/
def requestText (host : List UInt8) (path : Option (List UInt8)) : List UInt8 :=
  chars "GET " ++ text (path.getD (chars "/")) ++ chars " HTTP/1.1\r\n" ++
    chars "Host: " ++ text host ++ chars "\r\n\r\n"

/-- A step of the request has failed: it is reported, and the socket is closed. -/
def giveUp (s : Sockets) (sock : ℤ) (message : String) :
    Traced CmdEvent (ℤ × HttpResponse × Sockets) := do
  vgaWriteString (chars message)
  return (-1, clearedResponse, (Sock.close s sock).2)

/-- The request, once the address of the server is known. -/
def httpExchange (s : Sockets) (serverIp : Ipv4Addr) (host : List UInt8) (port : UInt16)
    (path : Option (List UInt8)) (responseBuf : ℕ → UInt8) :
    Traced CmdEvent (ℤ × HttpResponse × Sockets) :=
  let (sock, s) := socket s afInet sockStream 6
  if sock < 0 then do
    vgaWriteString (chars "Failed to create socket\n")
    return (-1, clearedResponse, s)
  else
    let (connected, s) := connect s sock serverIp port
    if connected < 0 then giveUp s sock "Failed to connect\n"
    else do
      let request := requestText host path
      let (sent, s) ← relabel .net (send s sock (fun i => request.getD i 0) request.length.toUInt16)
      if sent < 0 then giveUp s sock "Failed to send request\n"
      else
        let (recvLen, s) := recv s sock 2048
        let s := (Sock.close s sock).2
        if recvLen ≤ 0 then do
          vgaWriteString (chars "Failed to receive response\n")
          return (-1, clearedResponse, s)
        else
          let (parsed, resp, net) :=
            (httpClientParseResponse responseBuf s.net recvLen.toNat.toUInt16 clearedResponse).val
          let s := { s with net := net }
          if parsed < 0 then do
            vgaWriteString (chars "Failed to parse response\n")
            return (-1, resp, s)
          else return (0, resp, s)

def httpClientGet (s : Sockets) (host : List UInt8) (port : UInt16) (path : Option (List UInt8))
    (responseBuf : ℕ → UInt8) : Traced CmdEvent (ℤ × HttpResponse × Sockets) :=
  match hostAddress host with
  | none => do
    vgaWriteString (chars "Invalid host IP\n")
    return (-1, clearedResponse, s)
  | some serverIp => httpExchange s serverIp host port path responseBuf

/-- `http_client_free`: the body goes back to the heap. -/
def httpClientFree (s : Sockets) (resp : HttpResponse) : HttpResponse × Sockets :=
  if resp.body ≠ null then
    ({ resp with body := null, bodyLen := 0 },
      { s with net := { s.net with heap := free s.net.heap resp.body } })
  else ({ resp with bodyLen := 0 }, s)

end VlsOs.Net.Http
