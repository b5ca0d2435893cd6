import VlsOs.Net.DisplayBuffers
import VlsOs.Net.HttpBounds
import VlsOs.Net.Services

/-! The HTTP server (`net/http.c`) and what the HTTP client makes of its page.

    `http_send_response` puts the response together in a local array of 512 characters, with a numeral
    in an array of 16 and the reason in one of 32; then it prints a line and counts the request. The
    response is a standard one, and it fits. The client parses it as a status line and headers only:
    the page stands on one line, so it is skipped as a header.

        HTTP/1.1 200 OK ␍␊ Content-Type: … ␍␊ Connection: close ␍␊ ␍␊ <html> … 17</p></body></html>
        status line        headers, for the client ─────────────────────────────────────────────── -/

namespace VlsOs.Net.Http
open Patterns Patterns.Trace VlsOs.Memory VlsOs.Libc VlsOs.Net.Sock VlsOs.Shell

/-! ### The source -/

/-- What the server uses of an `http_client_t`. -/
structure HttpClient where
  clientIp : Ipv4Addr
  clientPort : UInt16
  bufferLen : UInt16
  active : Bool

/-- The `switch` over the status code. -/
def httpStatusText (statusCode : UInt16) : List UInt8 :=
  if statusCode = 200 then chars "OK"
  else if statusCode = 400 then chars "Bad Request"
  else if statusCode = 404 then chars "Not Found"
  else if statusCode = 500 then chars "Internal Server Error"
  else chars "Unknown"

/-- `strcat (response, s)`: what stands in the array of 512 characters then. -/
def strcatResponse (response s : List UInt8) : Traced CmdEvent (List UInt8) := do
  emit (.store 512 (response ++ text s ++ [0]))
  return response ++ text s

/-- The first half of `http_send_response`: the text in `response`, and `count_str`. -/
def buildResponse (statusCode : UInt16) (body : List UInt8) (requestsServed : UInt32)
    (countStr : List UInt8) : Traced CmdEvent (List UInt8 × List UInt8) := do
  let statusText := httpStatusText statusCode
  emit (.store 32 (statusText ++ [0]))
  let response := chars "HTTP/1.1 "
  emit (.store 512 (response ++ [0]))
  let countStr ← itoaInto 16 countStr (Int32.ofNat statusCode.toNat) 10
  let response ← strcatResponse response countStr
  let response ← strcatResponse response (chars " ")
  let response ← strcatResponse response statusText
  let response ← strcatResponse response
    (chars "\r\nContent-Type: text/html\r\nConnection: close\r\n\r\n")
  let response ← strcatResponse response body
  let countStr ← itoaInto 16 countStr requestsServed.toInt32 10
  let response ← strcatResponse response countStr
  let response ← strcatResponse response (chars "</p></body></html>")
  return (response, countStr)

/-- `http_send_response`: the response stays in its array, and the request is counted. -/
def httpSendResponse (statusCode : UInt16) (body : List UInt8) (requestsServed : UInt32)
    (countStr : List UInt8) : Traced CmdEvent UInt32 := do
  let (_, countStr) ← buildResponse statusCode body requestsServed countStr
  vgaWriteString (chars "HTTP/1.1 ")
  let _ ← printNumber 16 countStr (Int32.ofNat statusCode.toNat) 10
  vgaWriteString (chars "\n")
  return requestsServed + 1

def htmlResponse : List UInt8 :=
  chars "<html><head><title>VlsOs</title></head><body><h1>Welcome to VlsOs HTTP Server!</h1>" ++
    chars "<p>This is a simple web server running inside an x86 OS.</p><p>Requests served: "

/-- `http_handle_client`: the client is done with, the count goes on. -/
def httpHandleClient (client : HttpClient) (requestsServed : UInt32) (countStr : List UInt8) :
    Traced CmdEvent (HttpClient × UInt32) := do
  let requestsServed ← httpSendResponse 200 htmlResponse requestsServed countStr
  return ({ client with active := false }, requestsServed)

/-- `http_server_t`. -/
structure HttpService where
  server : HttpServer
  clients : Fin 4 → HttpClient
  requestsServed : UInt32

/-- The local variables that `accept` does not fill in. -/
structure PollStack where
  clientAddr : Ipv4Addr
  clientPort : UInt16
  countStr : List UInt8

/-- A turn of the first loop of `http_server_poll`. -/
def acceptTurn (s : Sockets) (stack : PollStack) (i : ℕ) (h : HttpService) : HttpService :=
  if !(h.clients (Fin.ofNat 4 i)).active then
    if (accept s h.server.serverSocket).1 ≥ 0 then
      let client : HttpClient := ⟨stack.clientAddr, stack.clientPort, 0, true⟩
      { h with clients := Function.update h.clients (Fin.ofNat 4 i) client }
    else h
  else h

/-- A turn of the second loop. -/
def handleTurn (stack : PollStack) (i : ℕ) (h : HttpService) : Traced CmdEvent HttpService :=
  if (h.clients (Fin.ofNat 4 i)).active then do
    let r ← httpHandleClient (h.clients (Fin.ofNat 4 i)) h.requestsServed stack.countStr
    return { h with clients := Function.update h.clients (Fin.ofNat 4 i) r.1, requestsServed := r.2 }
  else return h

def httpServerPoll (s : Sockets) (stack : PollStack) (h : HttpService) :
    Traced CmdEvent HttpService :=
  if !h.server.running then return h
  else do
    let h ← loop (fun i h => pure (acceptTurn s stack i h)) 4 h
    loop (handleTurn stack) 4 h

/-! ### The response -/

/-- The number of requests as it is written into the page. -/
def countText (requestsServed : UInt32) : List UInt8 := itoaText requestsServed.toInt32 10

/-- The text that `http_send_response` puts together. -/
def responseText (statusCode : UInt16) (body : List UInt8) (requestsServed : UInt32) : List UInt8 :=
  chars "HTTP/1.1 " ++ itoaText (Int32.ofNat statusCode.toNat) 10 ++ chars " " ++
    httpStatusText statusCode ++
    chars "\r\nContent-Type: text/html\r\nConnection: close\r\n\r\n" ++ body ++
    countText requestsServed ++ chars "</p></body></html>"

theorem text_httpStatusText (statusCode : UInt16) :
    text (httpStatusText statusCode) = httpStatusText statusCode := by
  refine text_of_no_nul ?_
  unfold httpStatusText
  split_ifs <;> decide

/-- A numeral of a 32-bit number has at most eleven characters. -/
theorem length_itoaText_decimal (value : Int32) : (itoaText value 10).length ≤ 11 := by
  by_cases hmin : value = Int32.minValue
  · rw [hmin, itoaText_minValue]
    decide
  · have hten : (10 : Int32) = Int32.ofNat 10 := rfl
    have hlt := natAbs_lt hmin
    have hdigits : (numeralText 10 value.toInt.natAbs).length ≤ 10 := by
      rw [length_numeralText, Numerals.length_numeral_le_iff (by decide) (by decide)]
      exact hlt.trans (by decide)
    rw [hten, itoaText_eq (by decide) (by decide) hmin, List.length_append]
    split
    · exact Nat.add_le_add (le_refl 1) hdigits
    · exact Nat.add_le_add (Nat.zero_le 1) hdigits

@[simp] theorem all_fits_itoaInto_16 (value : Int32) (buf : List UInt8) :
    All Fits (itoaInto 16 buf value 10) := by
  have hlength := length_itoaText_decimal value
  have hitoa : (itoa value [] 10).length = (itoaText value 10).length + 1 := by
    rw [itoa_of_base (by decide)]
    simp
  rw [itoaInto, all_bind, all_emit]
  refine ⟨?_, all_pure _ _⟩
  show (itoa value [] 10).length ≤ 16
  omega

theorem all_fits_strcatResponse (response s : List UInt8) :
    All Fits (strcatResponse response s) ↔ (response ++ text s).length ≤ 511 := by
  rw [strcatResponse, all_bind, all_emit, and_iff_left (all_pure _ _)]
  show (response ++ text s ++ [0]).length ≤ 512 ↔ _
  rw [List.length_append, List.length_singleton]
  omega

@[simp] theorem val_strcatResponse (response s : List UInt8) :
    (strcatResponse response s).val = response ++ text s := rfl

theorem text_itoa_decimal (value : Int32) (buf : List UInt8) :
    text (itoa value buf 10) = itoaText value 10 :=
  text_itoa (b := 10) (by decide) (by decide) value buf

/-- SPEC of the first half: the text, and what is stored on the way to it. -/
theorem buildResponse_spec (statusCode : UInt16) {body : List UInt8} (hbody : 0 ∉ body)
    (requestsServed : UInt32) (countStr : List UInt8) :
    (buildResponse statusCode body requestsServed countStr).val.1 =
        responseText statusCode body requestsServed ∧
      (All Fits (buildResponse statusCode body requestsServed countStr) ↔
        (responseText statusCode body requestsServed).length ≤ 511) := by
  have hstatus := text_httpStatusText statusCode
  have hreason : (httpStatusText statusCode).length ≤ 31 := by
    unfold httpStatusText
    split_ifs <;> decide
  have hstore : Fits (.store 32 (httpStatusText statusCode ++ [0])) := by
    show (httpStatusText statusCode ++ [0]).length ≤ 32
    rw [List.length_append]
    exact Nat.add_le_add_right hreason 1
  have hfirst : Fits (.store 512 (chars "HTTP/1.1 " ++ [0])) := by
    show (chars "HTTP/1.1 " ++ [0]).length ≤ 512
    decide
  have hspace : text (chars " ") = chars " " := text_chars (by decide)
  have hheaders : text (chars "\r\nContent-Type: text/html\r\nConnection: close\r\n\r\n") =
    chars "\r\nContent-Type: text/html\r\nConnection: close\r\n\r\n" := text_chars (by decide)
  have hend : text (chars "</p></body></html>") = chars "</p></body></html>" :=
    text_chars (by decide)
  constructor
  · simp only [buildResponse, val_bind, val_pure, val_strcatResponse, val_itoaInto, text_itoa_decimal,
      hstatus, hspace, hheaders, hend, text_of_no_nul hbody, responseText, countText]
  · simp only [buildResponse, all_bind, all_emit, val_strcatResponse, val_itoaInto,
      text_itoa_decimal, hstatus, hspace, hheaders, hend, text_of_no_nul hbody, hstore, hfirst,
      all_fits_itoaInto_16, all_fits_strcatResponse, all_pure, true_and, and_true, responseText,
      countText, List.length_append]
    omega

/-! ### The client -/

/-- What the text is, for a reader of responses. -/
def serverResponse (statusCode : UInt16) (body : List UInt8) (requestsServed : UInt32) : Response where
  version := 49
  status := itoaText (Int32.ofNat statusCode.toNat) 10
  reason := httpStatusText statusCode
  headers := [chars "Content-Type: text/html", chars "Connection: close"]
  body := body ++ countText requestsServed ++ chars "</p></body></html>"

theorem bytes_serverResponse (statusCode : UInt16) (body : List UInt8) (requestsServed : UInt32) :
    (serverResponse statusCode body requestsServed).bytes =
      responseText statusCode body requestsServed := by
  have hname : chars "HTTP/1.1 " = protocolName ++ [49, 32] := by decide
  have hspace : chars " " = [32] := by decide
  have hheaders : chars "\r\nContent-Type: text/html\r\nConnection: close\r\n\r\n" =
      crlf ++ chars "Content-Type: text/html" ++ crlf ++ chars "Connection: close" ++ crlf ++ crlf := by
    decide
  rw [responseText, hname, hspace, hheaders]
  simp [Response.bytes, Response.head, Response.statusLine, serverResponse, ended]

/-- The digits of a status code. -/
theorem status_digits {statusCode : UInt16} (hlow : 100 ≤ statusCode.toNat)
    (hhigh : statusCode.toNat ≤ 999) :
    itoaText (Int32.ofNat statusCode.toNat) 10 = numeralText 10 statusCode.toNat ∧
      (numeralText 10 statusCode.toNat).length = 3 := by
  refine ⟨itoaText_ofNat (b := 10) (by decide) (by decide) (by omega), ?_⟩
  have hthree : (Numerals.numeral 10 statusCode.toNat).length ≤ 3 := by
    rw [Numerals.length_numeral_le_iff (by decide) (by decide)]
    omega
  have htwo : ¬ (Numerals.numeral 10 statusCode.toNat).length ≤ 2 := by
    rw [Numerals.length_numeral_le_iff (by decide) (by decide)]
    omega
  rw [length_numeralText]
  omega

/-- No character of a numeral ends a line or a string. -/
theorem notMem_itoaText_decimal {c : UInt8} (hdigit : isdigit c = false) (hminus : c ≠ 45)
    (value : Int32) : c ∉ itoaText value 10 := by
  have hten : (10 : Int32) = Int32.ofNat 10 := rfl
  by_cases hmin : value = Int32.minValue
  · rw [hmin, itoaText_minValue]
    simpa using hminus
  · rw [hten, itoaText_eq (by decide) (by decide) hmin, List.mem_append, not_or]
    refine ⟨?_, fun h => ?_⟩
    · split <;> simp [hminus]
    · rw [isdigit_of_mem_numeralText h] at hdigit
      cases hdigit

theorem isLine_httpStatusText (statusCode : UInt16) : IsLine (httpStatusText statusCode) := by
  unfold httpStatusText
  split_ifs <;> decide

theorem standard_serverResponse {statusCode : UInt16} (hlow : 100 ≤ statusCode.toNat)
    (hhigh : statusCode.toNat ≤ 999) {body : List UInt8} {requestsServed : UInt32}
    (hsize : (responseText statusCode body requestsServed).length ≤ 2048) :
    (serverResponse statusCode body requestsServed).Standard := by
  obtain ⟨hdigits, hlength⟩ := status_digits hlow hhigh
  have hnone : (serverResponse statusCode body requestsServed).headers.filterMap lengthValue = [] := by
    show [chars "Content-Type: text/html", chars "Connection: close"].filterMap lengthValue = []
    decide
  refine ⟨rfl, ?_, ?_, isLine_httpStatusText statusCode, ?_, ?_, ?_, ?_⟩
  · show (itoaText (Int32.ofNat statusCode.toNat) 10).length = 3
    rw [hdigits, hlength]
  · intro c hc
    have hmem : c ∈ itoaText (Int32.ofNat statusCode.toNat) 10 := hc
    rw [hdigits] at hmem
    exact isdigit_of_mem_numeralText hmem
  · show ∀ line ∈ [chars "Content-Type: text/html", chars "Connection: close"], IsLine line
    decide
  · rw [hnone]
    exact Nat.zero_le 1
  · rw [Response.contentLength, hnone]
    decide
  · rw [bytes_serverResponse]
    exact hsize

section
variable {buf : ℕ → UInt8} {buflen : ℕ}

/-- What is left of the buffer is one header, if there is no LF in it. -/
theorem headerLoop_no_lf {i : ℕ} (hi : i < buflen) (hno : ∀ k, i ≤ k → k < buflen → buf k ≠ 10)
    (turns : ℕ) (contentLength : UInt32) :
    (headerLoop buf buflen (turns + 1) i contentLength).val.1 = buflen := by
  have hread := (readLength_spec buf hi.le contentLength).1
  have hforward := @le_readLength buf buflen i contentLength
  have hskip := @skipTo_bounds buf buflen 10 _ hread
  have hend : (skipTo buf buflen 10 (readLength buf buflen i contentLength).val.1).val = buflen := by
    rcases @skipTo_stops buf buflen 10 _ hread with hstop | hlf
    · omega
    · by_contra hne
      exact hno _ (by omega) (by omega) hlf
  have hline : (headerLine buf buflen i contentLength).val.1 = buflen := by
    rw [headerLine, val_bind, val_bind, val_pure, hend, if_neg (lt_irrefl _)]
  rw [headerLoop, if_pos hi, val_bind, if_pos (hno i le_rfl hi), val_bind, hline]
  cases turns with
  | zero => rfl
  | succ turns =>
    rw [headerLoop, if_neg (lt_irrefl _)]
    rfl

end

/-- A body on one line is lost: the response is accepted, with its status code and an empty body. -/
theorem parse_one_line {r : Response} {buf : ℕ → UInt8} (hstd : r.Standard)
    (hbuf : Blocks.stretch buf 0 r.bytes.length = r.bytes) (hbody : r.body ≠ []) (hline : 10 ∉ r.body)
    {s : NetState} (halloc : (malloc s.heap 1).1 ≠ null) (resp : HttpResponse) :
    (parsed s buf resp r).1 = 0 ∧ (parsed s buf resp r).2.1.statusCode.toNat = decimal r.status ∧
      (parsed s buf resp r).2.1.bodyLen = 0 := by
  obtain ⟨turns, hparse⟩ := hstd.parse_head hbuf s resp
  have htotal : r.bytes.length = r.head.length + r.body.length := List.length_append
  have hpos := List.length_pos_iff.mpr hbody
  have hrest : Blocks.stretch buf r.head.length r.body.length = r.body := by
    have hsplit := (Blocks.stretch_eq_append hbuf).2
    rwa [Nat.zero_add] at hsplit
  have hno : ∀ k, r.head.length ≤ k → k < r.bytes.length → buf k ≠ 10 := by
    intro k hk hlt
    exact ne_of_stretch hrest hline k hk (by omega)
  have hend := @headerLoop_no_lf buf r.bytes.length r.head.length (by omega) hno turns
    (((r.headers.filterMap leadingNumber).map UInt32.ofNat).getLastD 0)
  dsimp only at hparse
  rw [hend, if_neg (lt_irrefl _)] at hparse
  have hone : UInt32.ofNat (r.bytes.length - r.bytes.length + 1) = 1 := by
    rw [Nat.sub_self]
    rfl
  obtain ⟨hresult, hresp⟩ := @takeBody_ok buf r.bytes.length s r.bytes.length (by rwa [hone])
    { resp with
      statusCode := (Int32.ofNat (decimal r.status)).toUInt32.toUInt16
      contentLength := (headerLoop buf r.bytes.length (turns + 1) r.head.length
        (((r.headers.filterMap leadingNumber).map UInt32.ofNat).getLastD 0)).val.2 }
  have hstatus : decimal r.status < 1000 := by
    have hlt := decimal_lt hstd.status_digits
    rwa [hstd.status_length] at hlt
  rw [hparse, hresp]
  refine ⟨hresult, ?_, ?_⟩
  · change (UInt32.ofNat (decimal r.status)).toUInt16.toNat = decimal r.status
    rw [UInt32.toNat_toUInt16, UInt32.toNat_ofNat']
    omega
  · dsimp only
    rw [Nat.sub_self]
    rfl

/-- A response that fits, with a body of one line: the client accepts what the server builds, and
    loses the body. -/
theorem server_response_parsed {statusCode : UInt16} (hlow : 100 ≤ statusCode.toNat)
    (hhigh : statusCode.toNat ≤ 999) {body : List UInt8} (hline : 10 ∉ body) {requestsServed : UInt32}
    (hsize : (responseText statusCode body requestsServed).length ≤ 511) {buf : ℕ → UInt8}
    (hbuf : Blocks.stretch buf 0 (responseText statusCode body requestsServed).length =
      responseText statusCode body requestsServed) {s : NetState}
    (halloc : (malloc s.heap 1).1 ≠ null) (resp : HttpResponse) :
    (serverResponse statusCode body requestsServed).Standard ∧
      (parsed s buf resp (serverResponse statusCode body requestsServed)).1 = 0 ∧
      (parsed s buf resp (serverResponse statusCode body requestsServed)).2.1.statusCode = statusCode ∧
      (parsed s buf resp (serverResponse statusCode body requestsServed)).2.1.bodyLen = 0 := by
  have hstd : (serverResponse statusCode body requestsServed).Standard :=
    standard_serverResponse hlow hhigh (hsize.trans (by decide))
  have hne : (serverResponse statusCode body requestsServed).body ≠ [] := by
    intro hnil
    have htail : chars "</p></body></html>" = [] := (List.append_eq_nil_iff.mp hnil).2
    exact absurd htail (by decide)
  have hlf : 10 ∉ (serverResponse statusCode body requestsServed).body := by
    have hcount : 10 ∉ countText requestsServed := notMem_itoaText_decimal rfl (by decide) _
    have htail : 10 ∉ chars "</p></body></html>" := by decide
    show 10 ∉ body ++ countText requestsServed ++ chars "</p></body></html>"
    simp only [List.mem_append, hline, hcount, htail, or_self, not_false_iff]
  rw [← bytes_serverResponse] at hbuf
  obtain ⟨hresult, hstatus, hempty⟩ := parse_one_line hstd hbuf hne hlf halloc resp
  refine ⟨hstd, hresult, ?_, hempty⟩
  rw [← UInt16.toNat_inj, hstatus]
  show decimal (itoaText (Int32.ofNat statusCode.toNat) 10) = _
  rw [(status_digits hlow hhigh).1, decimal_numeralText]

/-- The page has room for every count. -/
theorem length_page (requestsServed : UInt32) :
    (responseText 200 htmlResponse requestsServed).length ≤ 511 := by
  have hcount : (countText requestsServed).length ≤ 11 := length_itoaText_decimal _
  have hbefore : (chars "HTTP/1.1 " ++ itoaText (Int32.ofNat (200 : UInt16).toNat) 10 ++ chars " " ++
      httpStatusText 200 ++ chars "\r\nContent-Type: text/html\r\nConnection: close\r\n\r\n" ++
      htmlResponse).length ≤ 300 := by decide +kernel
  have htail : (chars "</p></body></html>").length = 18 := by decide
  rw [responseText, List.length_append, List.length_append, htail]
  omega

/-- BROKEN ROUND TRIP: for every count of requests, what `http_handle_client` stores fits its arrays,
    and the response that it builds is a standard one with status 200. The client, given exactly that
    response, accepts it with status 200 and an empty body: the page is lost. -/
theorem http_page_lost (client : HttpClient) (requestsServed : UInt32) (countStr : List UInt8)
    {buf : ℕ → UInt8}
    (hbuf : Blocks.stretch buf 0 (buildResponse 200 htmlResponse requestsServed countStr).val.1.length =
      (buildResponse 200 htmlResponse requestsServed countStr).val.1)
    {s : NetState} (halloc : (malloc s.heap 1).1 ≠ null) (resp : HttpResponse) :
    let page := serverResponse 200 htmlResponse requestsServed
    All Fits (httpHandleClient client requestsServed countStr) ∧
      (buildResponse 200 htmlResponse requestsServed countStr).val.1 = page.bytes ∧ page.Standard ∧
      htmlResponse <+: page.body ∧
      (parsed s buf resp page).1 = 0 ∧ (parsed s buf resp page).2.1.statusCode = 200 ∧
      (parsed s buf resp page).2.1.bodyLen = 0 := by
  obtain ⟨htext, hfits⟩ := @buildResponse_spec 200 htmlResponse (by decide)
    requestsServed countStr
  have hall := hfits.mpr (length_page requestsServed)
  rw [htext] at hbuf
  obtain ⟨hstd, hresult, hstatus, hempty⟩ := server_response_parsed (by decide) (by decide)
    (by decide) (length_page requestsServed) hbuf halloc resp
  refine ⟨?_, htext.trans (bytes_serverResponse ..).symm, hstd, ?_, hresult, hstatus, hempty⟩
  · rw [httpHandleClient, all_bind, httpSendResponse, all_bind]
    refine ⟨⟨hall, ?_⟩, all_pure _ _⟩
    simp only [printNumber, all_bind, all_fits_vgaWriteString, all_fits_itoaInto_16, all_pure, and_self]
  · rw [show (serverResponse 200 htmlResponse requestsServed).body = htmlResponse ++
      countText requestsServed ++ chars "</p></body></html>" from rfl, List.append_assoc]
    exact List.prefix_append ..

/-- The seventeenth page. -/
theorem http_page_lost_seventeen :
    let page := serverResponse 200 htmlResponse 17
    All Fits (httpHandleClient ⟨anyAddr, 0, 0, true⟩ 17 []) ∧
      (buildResponse 200 htmlResponse 17 []).val.1 = page.bytes ∧ page.Standard ∧
      htmlResponse <+: page.body ∧
      (parsed sampleHost page.inBuffer clearedResponse page).1 = 0 ∧
      (parsed sampleHost page.inBuffer clearedResponse page).2.1.statusCode = 200 ∧
      (parsed sampleHost page.inBuffer clearedResponse page).2.1.bodyLen = 0 := by
  have htext : (buildResponse 200 htmlResponse 17 []).val.1 =
      (serverResponse 200 htmlResponse 17).bytes :=
    (buildResponse_spec 200 (by decide) 17 []).1.trans (bytes_serverResponse ..).symm
  exact http_page_lost ⟨anyAddr, 0, 0, true⟩ 17 [] (by rw [htext]; exact Blocks.stretch_getD ..)
    (by decide) clearedResponse

end VlsOs.Net.Http
