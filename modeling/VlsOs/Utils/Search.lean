import VlsOs.Schemes.Bubble
import VlsOs.Shell.Console

/-! The search engine (`utils/search.c`).

    `search_system` goes through a registry of titles and contents, scores each entry against the
    query, keeps those with a score, sorts them by it and prints them. A score comes from matches in
    the title and in the content, whatever the case of the letters; the bonus for a query at the start
    of the title does look at the case.

        registry ──score > 0──▶ matches ──bubble sort──▶ [1] … [2] … -/

namespace VlsOs.Search
open Patterns Patterns.Trace VlsOs.Libc VlsOs.Shell

/-- `struct search_result`; the strings are not `NULL`. -/
structure SearchResult where
  title : List UInt8
  content : List UInt8
  relevance : ℕ
  deriving DecidableEq

/-- The registry, without the entry that ends it. -/
def systemData : List SearchResult :=
  [⟨chars "Command: help", chars "Display available commands", 1⟩,
    ⟨chars "Command: echo", chars "Echo arguments to display text output", 2⟩,
    ⟨chars "Command: clear", chars "Clear the screen and reset display", 1⟩,
    ⟨chars "Command: uptime", chars "Show system uptime in ticks", 1⟩,
    ⟨chars "Command: ls", chars "List files and directories", 1⟩,
    ⟨chars "Command: exit", chars "Exit the shell", 1⟩,
    ⟨chars "Command: ifconfig", chars "Show network interface configuration and IP", 2⟩,
    ⟨chars "Command: ping", chars "Send ICMP echo request ping to host", 2⟩,
    ⟨chars "Command: netstat", chars "Show network connections and statistics", 2⟩,
    ⟨chars "Command: arp", chars "Show ARP cache and address resolution", 2⟩,
    ⟨chars "Command: route", chars "Show routing table", 1⟩,
    ⟨chars "Command: http", chars "HTTP server control start stop status", 2⟩,
    ⟨chars "Command: search", chars "Search system information and data", 2⟩,
    ⟨chars "System: Memory", chars "Virtual memory management and paging", 1⟩,
    ⟨chars "System: PIT", chars "Programmable Interval Timer for scheduling", 1⟩,
    ⟨chars "System: IDT", chars "Interrupt Descriptor Table for exceptions", 1⟩,
    ⟨chars "System: Keyboard", chars "PS/2 keyboard driver and input handling", 1⟩,
    ⟨chars "System: VGA", chars "Video Graphics Array text mode display", 1⟩,
    ⟨chars "System: Network", chars "Network stack with TCP IP UDP support", 2⟩,
    ⟨chars "System: ARP", chars "Address Resolution Protocol for MAC lookup", 1⟩,
    ⟨chars "System: ICMP", chars "Internet Control Message Protocol ping", 1⟩,
    ⟨chars "System: TCP", chars "Transmission Control Protocol reliable stream", 2⟩,
    ⟨chars "System: UDP", chars "User Datagram Protocol unreliable datagram", 1⟩,
    ⟨chars "System: Socket", chars "Socket abstraction for network communication", 2⟩,
    ⟨chars "System: HTTP", chars "HyperText Transfer Protocol web server", 2⟩,
    ⟨chars "Architecture: x86", chars "32-bit x86 processor instruction set", 1⟩,
    ⟨chars "Architecture: Multiboot", chars "Multiboot bootloader specification", 1⟩,
    ⟨chars "Architecture: Interrupts", chars "Interrupt handling and exception dispatch", 1⟩]

/-- A letter in lower case. -/
def lowered (c : UInt8) : UInt8 := if 65 ≤ promote c ∧ promote c ≤ 90 then c + 32 else c

/-- The inner loop of `contains_pattern`: the pattern stands at `i`, up to the case of letters. -/
def matchesAt (text pattern : List UInt8) (i : ℕ) : Bool :=
  (List.range pattern.length).all fun j => lowered (text.getD (i + j) 0) = lowered (pattern.getD j 0)

def containsPattern (text pattern : List UInt8) : Bool :=
  let text := Libc.text text
  let pattern := Libc.text pattern
  if pattern.length > text.length then false
  else (List.range (text.length - pattern.length + 1)).any (matchesAt text pattern)

def calculateRelevance (title content pattern : List UInt8) : ℕ :=
  let plen := (text pattern).length
  (if containsPattern title pattern then
    10 + if strncmp title pattern plen = 0 ∨ strncmp (title.drop 2) pattern plen = 0 then 20 else 0
  else 0) +
    if containsPattern content pattern then 5 else 0

def maxMatches : ℕ := 32

/-- The first pass: the body of the loop over the registry. -/
def addMatch (query : List UInt8) (found : List SearchResult) (entry : SearchResult) :
    List SearchResult :=
  let relevance := calculateRelevance entry.title entry.content query
  if relevance > 0 ∧ found.length < maxMatches then
    found ++ [{ entry with relevance := relevance }]
  else found

/-- The array `matches`, sorted. -/
def searchResults (registry : List SearchResult) (query : List UInt8) : List SearchResult :=
  Bubble.sort SearchResult.relevance (registry.foldl (addMatch query) [])

/-- The lines for one result, with its number. -/
def printResult (buf : List UInt8) (i : ℕ) (result : SearchResult) : Traced CmdEvent Unit := do
  vgaWriteString (chars "[")
  let _ ← printNumber 4 buf (Int32.ofNat (i + 1)) 10
  vgaWriteString (chars "] ")
  vgaWriteString result.title
  vgaWriteString (chars "\n    ")
  vgaWriteString result.content
  vgaWriteString (chars "\n\n")

def printResults (buf : List UInt8) (results : List SearchResult) : Traced CmdEvent Unit :=
  loop (fun i _ => printResult buf i (results.getD i ⟨[], [], 0⟩)) results.length ()

/-- `search_system`, on any registry; `buf` is what the arrays for the numbers start with. -/
def searchIn (registry : List SearchResult) (query buf : List UInt8) : Traced CmdEvent ℤ :=
  if text query = [] then do
    vgaWriteString (chars "Usage: search <query>\n")
    vgaWriteString (chars "Example: search network\n")
    return 1
  else do
    vgaWriteString (chars "=== Search Results for: ")
    vgaWriteString query
    vgaWriteString (chars " ===\n\n")
    let results := searchResults registry query
    if results.length = 0 then do
      vgaWriteString (chars "No results found.\n")
      return 1
    else do
      printResults buf results
      vgaWriteString (chars "Found ")
      let _ ← printNumber 4 buf (Int32.ofNat results.length) 10
      vgaWriteString (chars " result(s).\n")
      return 0

def searchSystem (query buf : List UInt8) : Traced CmdEvent ℤ := searchIn systemData query buf

/-! ### Occurrences -/

/-- The pattern occurs in the text, if the case of letters is ignored. -/
def Occurs (pattern text : List UInt8) : Prop :=
  (Libc.text pattern).map lowered <:+: (Libc.text text).map lowered

instance (pattern text : List UInt8) : Decidable (Occurs pattern text) :=
  inferInstanceAs (Decidable (_ <:+: _))

theorem matchesAt_iff {text pattern : List UInt8} {i : ℕ} (hi : i + pattern.length ≤ text.length) :
    matchesAt text pattern i = true ↔
      ((text.drop i).take pattern.length).map lowered = pattern.map lowered := by
  have hlength : (((text.drop i).take pattern.length).map lowered).length =
      (pattern.map lowered).length := by
    simp
    omega
  rw [matchesAt, List.all_eq_true]
  constructor
  · intro h
    refine List.ext_getElem hlength fun j hj hj' => ?_
    rw [List.length_map] at hj'
    have heq := of_decide_eq_true (h j (List.mem_range.mpr hj'))
    rw [List.getD_eq_getElem _ _ (by omega), List.getD_eq_getElem _ _ hj'] at heq
    simpa using heq
  · intro h j hj
    have hj' := List.mem_range.mp hj
    have heq := congrArg (fun l => l[j]?) h
    refine decide_eq_true ?_
    rw [List.getD_eq_getElem _ _ (by omega), List.getD_eq_getElem _ _ hj']
    simpa [hj', List.getElem?_eq_getElem (show i + j < text.length by omega)] using heq

/-- SPEC of the substring search. -/
theorem containsPattern_iff (text pattern : List UInt8) :
    containsPattern text pattern = true ↔ Occurs pattern text := by
  rw [containsPattern, Occurs]
  generalize Libc.text text = t
  generalize Libc.text pattern = p
  split
  next hlong =>
    refine iff_of_false (by decide) fun h => ?_
    have hle := h.length_le
    rw [List.length_map, List.length_map] at hle
    omega
  next hshort =>
    rw [List.any_eq_true]
    constructor
    · rintro ⟨i, hi, hmatch⟩
      have hi' := List.mem_range.mp hi
      rw [matchesAt_iff (by omega)] at hmatch
      refine ⟨(t.take i).map lowered, ((t.drop i).drop p.length).map lowered, ?_⟩
      rw [← hmatch, ← List.map_append, ← List.map_append, List.append_assoc, List.take_append_drop,
        List.take_append_drop]
    · rintro ⟨before, after, heq⟩
      have hlength := congrArg List.length heq
      simp only [List.length_append, List.length_map] at hlength
      refine ⟨before.length, List.mem_range.mpr (by omega), (matchesAt_iff (by omega)).mpr ?_⟩
      rw [List.map_take, List.map_drop, ← heq, List.append_assoc, List.drop_left]
      exact List.take_left' (List.length_map _)

/-! ### Scores -/

/-- The score of an entry. -/
def score (query : List UInt8) (entry : SearchResult) : ℕ :=
  calculateRelevance entry.title entry.content query

/-- The query occurs in the title or in the content of the entry. -/
def Matches (query : List UInt8) (entry : SearchResult) : Prop :=
  Occurs query entry.title ∨ Occurs query entry.content

instance (query : List UInt8) (entry : SearchResult) : Decidable (Matches query entry) :=
  inferInstanceAs (Decidable (_ ∨ _))

/-- An entry has a score exactly if it matches. -/
theorem score_pos_iff (query : List UInt8) (entry : SearchResult) :
    0 < score query entry ↔ Matches query entry := by
  rw [score, calculateRelevance, Matches, ← containsPattern_iff, ← containsPattern_iff]
  cases containsPattern entry.title query <;> cases containsPattern entry.content query <;> simp

/-- The first pass keeps the entries that match, in order, as long as the array has room. -/
theorem foldl_addMatch (query : List UInt8) (registry : List SearchResult) :
    ∀ found : List SearchResult, found.length + registry.length ≤ maxMatches →
      registry.foldl (addMatch query) found = found ++ (registry.filter (Matches query ·)).map
        fun entry => { entry with relevance := score query entry } := by
  induction registry with
  | nil => simp
  | cons entry registry ih =>
    intro found hroom
    rw [List.length_cons] at hroom
    rw [List.foldl_cons]
    by_cases hmatch : Matches query entry
    · have hadd : addMatch query found entry =
          found ++ [{ entry with relevance := score query entry }] :=
        if_pos ⟨(score_pos_iff query entry).mpr hmatch, by omega⟩
      rw [hadd, ih _ (by simp; omega), List.filter_cons_of_pos (by simpa using hmatch)]
      simp
    · have hskip : addMatch query found entry = found :=
        if_neg fun h => hmatch ((score_pos_iff query entry).mp h.1)
      rw [hskip, ih _ (by omega), List.filter_cons_of_neg (by simpa using hmatch)]

/-! ### The list on the screen -/

/-- The entries that are listed, in order. -/
def listed (registry : List SearchResult) (query : List UInt8) : List SearchResult :=
  Bubble.sort (score query) (registry.filter (Matches query ·))

theorem searchResults_eq {registry : List SearchResult} (query : List UInt8)
    (hsize : registry.length ≤ 32) :
    searchResults registry query =
      (listed registry query).map fun entry => { entry with relevance := score query entry } := by
  have hroom : ([] : List SearchResult).length + registry.length ≤ maxMatches := by
    rw [List.length_nil, Nat.zero_add]
    exact hsize
  rw [searchResults, foldl_addMatch query registry [] hroom, List.nil_append, Bubble.sort_map]
  rfl

/-- The lines of one entry. -/
def entryText (i : ℕ) (entry : SearchResult) : List UInt8 :=
  chars "[" ++ (numeralText 10 (i + 1) ++ (chars "] " ++ (text entry.title ++ (chars "\n    " ++
    (text entry.content ++ chars "\n\n")))))

/-- The screen after a search that lists the entries. -/
def listing (query : List UInt8) (entries : List SearchResult) : List UInt8 :=
  chars "=== Search Results for: " ++ (text query ++ (chars " ===\n\n" ++
    if entries = [] then chars "No results found.\n"
    else (entries.mapIdx entryText).flatten ++ (chars "Found " ++ (numeralText 10 entries.length ++
      chars " result(s).\n"))))

theorem output_printResult (buf : List UInt8) {i : ℕ} (hi : i < 32) (result : SearchResult) :
    output (printResult buf i result) = entryText i result := by
  have hnumber : itoaText (Int32.ofNat (i + 1)) 10 = numeralText 10 (i + 1) :=
    itoaText_ofNat (b := 10) (by decide) (by decide) (by omega)
  simp (disch := decide) [printResult, entryText, hnumber, text_chars, -Int32.ofNat_add]

theorem output_printResults (buf : List UInt8) {results : List SearchResult}
    (hsize : results.length ≤ 32) :
    output (printResults buf results) = (results.mapIdx entryText).flatten := by
  rw [printResults, output_loop, List.flatMap]
  refine congrArg List.flatten (List.ext_getElem (by simp) fun i hi hi' => ?_)
  have hin : i < results.length := by simpa using hi'
  rw [List.getElem_map, List.getElem_range, output_printResult buf (by omega),
    List.getD_eq_getElem _ _ hin, List.getElem_mapIdx]

/-- The screen shows what the array holds. -/
theorem output_searchIn {registry : List SearchResult} {query : List UInt8} (buf : List UInt8)
    (hquery : text query ≠ []) (hsize : (searchResults registry query).length ≤ 32) :
    output (searchIn registry query buf) = listing query (searchResults registry query) := by
  rw [searchIn, if_neg hquery, listing]
  by_cases hnone : searchResults registry query = []
  · simp (disch := decide) [hnone, text_chars]
  · have hnumber : itoaText (Int32.ofNat (searchResults registry query).length) 10 =
        numeralText 10 (searchResults registry query).length :=
      itoaText_ofNat (b := 10) (by decide) (by decide) (by omega)
    simp (disch := decide) [hnone, output_printResults buf hsize, hnumber, text_chars]

/-- The listing does not show the scores. -/
theorem listing_map (query : List UInt8) (entries : List SearchResult) (relevance : SearchResult → ℕ) :
    listing query (entries.map fun entry => { entry with relevance := relevance entry }) =
      listing query entries := by
  have hlines : (entries.map fun entry => { entry with relevance := relevance entry }).mapIdx
      entryText = entries.mapIdx entryText := by
    refine List.ext_getElem (by simp) fun i hi hi' => ?_
    simp [entryText]
  rw [listing, listing, hlines, List.length_map]
  simp only [List.map_eq_nil_iff]

/-- CORRECT: on a registry that the array has room for, a search lists every entry that matches as
    often as it is registered, and no other; the best scores come first, and entries with one score in
    the order of the registry. -/
theorem search_lists_matches (registry : List SearchResult) (query buf : List UInt8)
    (hsize : registry.length ≤ 32) (hquery : text query ≠ []) :
    ∃ entries, output (searchIn registry query buf) = listing query entries ∧
      entries.Perm (registry.filter (Matches query ·)) ∧
      entries.Pairwise (fun first second => score query second ≤ score query first) ∧
      ∀ c, entries.filter (score query · = c) =
        (registry.filter (Matches query ·)).filter (score query · = c) := by
  have hsorted : Bubble.SortedFrom (score query) (registry.filter (Matches query ·)) _
      (listed registry query) := Bubble.sortedFrom_sort _
  have hresults := searchResults_eq query hsize
  have hcount : (searchResults registry query).length ≤ 32 := by
    rw [hresults, List.length_map, hsorted.perm.length_eq]
    exact (List.length_filter_le ..).trans hsize
  refine ⟨listed registry query, ?_, hsorted.perm, Bubble.pairwise_sort _, hsorted.stable⟩
  rw [output_searchIn buf hquery hcount, hresults, listing_map]

/-- A search in the registry of the source. -/
theorem search_lists_matches_timer :
    (systemData.length ≤ 32 ∧ text (chars "timer") ≠ []) ∧
      ∃ entries, output (searchSystem (chars "timer") []) = listing (chars "timer") entries ∧
        entries.Perm (systemData.filter (Matches (chars "timer") ·)) ∧
        entries.Pairwise (fun first second =>
          score (chars "timer") second ≤ score (chars "timer") first) ∧
        ∀ c, entries.filter (score (chars "timer") · = c) =
          (systemData.filter (Matches (chars "timer") ·)).filter (score (chars "timer") · = c) :=
  ⟨⟨by decide, by decide⟩, search_lists_matches systemData (chars "timer") [] (by decide) (by decide)⟩

example : output (searchIn (systemData.take 2) (chars "ECHO") []) =
    chars ("=== Search Results for: ECHO ===\n\n" ++
      "[1] Command: echo\n    Echo arguments to display text output\n\nFound 1 result(s).\n") := by
  decide +kernel

end VlsOs.Search
