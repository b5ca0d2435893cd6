import VlsOs.Net.DnsResponse

/-! The question in a response, and the names that get an answer.

    On its way from the query to the response the name of the question is a C string with dots between
    the labels. The string says which labels it was made of only if no label has a dot or a NUL in it:
    a dot inside a label becomes a boundary, and a NUL ends the name.

        query      5 v l s o s 5 l o c a l 0        11 v l s o s . l o c a l 0
                               │                              │
        string            "vlsos.local"                  "vlsos.local"
                               │                              │
        response   5 v l s o s 5 l o c a l 0        5 v l s o s 5 l o c a l 0 -/

namespace VlsOs.Net
open Patterns Patterns.Trace

/-! ### Questions -/

/-- Labels that have a place on the wire: each has a length byte, and it is not zero. -/
def IsLabels (labels : List (List UInt8)) : Prop :=
  ∀ label ∈ labels, 1 ≤ label.length ∧ label.length ≤ 255
  deriving Decidable

/-- The first question of a message: the labels of its name, and its type and class. -/
structure FirstQuestion (message : List UInt8) (labels : List (List UInt8)) (fixed : List UInt8) :
    Prop where
  valid : IsLabels labels
  size : fixed.length = 4
  there : ∃ rest, message.drop 12 = wireName labels ++ (fixed ++ rest)

/-- An address record: an owner, type A, class IN, a time to live, and four bytes. -/
def IsAddressRecord (bytes : List UInt8) : Prop :=
  ∃ owner ttl address, IsLabels owner ∧ ttl.length = 4 ∧ address.length = 4 ∧
    bytes = wireName owner ++ ([0, 1, 0, 1] ++ ttl ++ [0, 4] ++ address)

/-- An address record follows the first question. -/
def IncludesAddress (message : List UInt8) : Prop :=
  ∃ labels fixed record, IsLabels labels ∧ fixed.length = 4 ∧ IsAddressRecord record ∧
    message.drop 12 = wireName labels ++ (fixed ++ record)

/-- The responder's own names, in any case of the letters. -/
def IsOwn (labels : List (List UInt8)) : Prop :=
  labels.map (·.map lower) = [vlsos] ∨
    labels.map (·.map lower) = [vlsos, [108, 111, 99, 97, 108]]
  deriving Decidable

@[simp] theorem wireName_nil : wireName [] = [0] := rfl

@[simp] theorem wireName_cons (label : List UInt8) (labels : List (List UInt8)) :
    wireName (label :: labels) = UInt8.ofNat label.length :: (label ++ wireName labels) := by
  simp [wireName]

theorem ofNat_length_ne_zero {label : List UInt8} (h : 1 ≤ label.length ∧ label.length ≤ 255) :
    UInt8.ofNat label.length ≠ 0 := by
  intro h0
  have := congrArg UInt8.toNat h0
  rw [UInt8.toNat_ofNat_of_lt' (by rw [UInt8.size]; omega)] at this
  simp only [UInt8.toNat_zero] at this
  omega

/-- A name is read in one way only, whatever comes after it. -/
theorem wireName_append_inj : ∀ {ls ms : List (List UInt8)} {a b : List UInt8}, IsLabels ls →
    IsLabels ms → wireName ls ++ a = wireName ms ++ b → ls = ms ∧ a = b
  | [], [], a, b, _, _, h => ⟨rfl, by simpa using h⟩
  | [], m :: ms, a, b, _, hms, h => by
    rw [wireName_nil, wireName_cons] at h
    exact absurd (List.cons.inj h).1.symm (ofNat_length_ne_zero (hms m (by simp)))
  | l :: ls, [], a, b, hls, _, h => by
    rw [wireName_nil, wireName_cons] at h
    exact absurd (List.cons.inj h).1 (ofNat_length_ne_zero (hls l (by simp)))
  | l :: ls, m :: ms, a, b, hls, hms, h => by
    have hl := hls l (by simp)
    have hm := hms m (by simp)
    rw [wireName_cons, wireName_cons, List.cons_append, List.cons_append, List.cons.injEq,
      List.append_assoc, List.append_assoc] at h
    have hlength : l.length = m.length := by
      have := congrArg UInt8.toNat h.1
      rwa [UInt8.toNat_ofNat_of_lt' (by rw [UInt8.size]; omega),
        UInt8.toNat_ofNat_of_lt' (by rw [UInt8.size]; omega)] at this
    obtain ⟨rfl, hrest⟩ := List.append_inj h.2 hlength
    obtain ⟨rfl, rfl⟩ := wireName_append_inj (fun x hx => hls x (by simp [hx]))
      (fun x hx => hms x (by simp [hx])) hrest
    exact ⟨rfl, rfl⟩

/-- So a message has one first question at most. -/
theorem FirstQuestion.unique {message : List UInt8} {ls ms : List (List UInt8)} {a b : List UInt8}
    (h : FirstQuestion message ls a) (h' : FirstQuestion message ms b) : ls = ms ∧ a = b := by
  obtain ⟨rest, hrest⟩ := h.there
  obtain ⟨rest', hrest'⟩ := h'.there
  obtain ⟨rfl, hfixed⟩ := wireName_append_inj h.valid h'.valid (hrest.symm.trans hrest')
  exact ⟨rfl, (List.append_inj hfixed (h.size.trans h'.size.symm)).1⟩

/-! ### Decoding -/

/-- The string that labels are decoded to; the root is kept as a dot. -/
def dotted : List (List UInt8) → List UInt8
  | [] => [dot]
  | label :: labels => label ++ labels.flatMap (dot :: ·)

theorem dotted_eq_intercalate {labels : List (List UInt8)} (h : labels ≠ []) :
    dotted labels = [dot].intercalate labels := by
  induction labels with
  | nil => exact absurd rfl h
  | cons label labels ih =>
    cases labels with
    | nil => simp [dotted, List.intercalate]
    | cons next labels =>
      rw [List.intercalate_cons_cons, ← ih (by simp)]
      simp [dotted]

theorem IsLabels.cons {label : List UInt8} {labels : List (List UInt8)} (hpos : 1 ≤ label.length)
    (hlt : label.length ≤ 255) (h : IsLabels labels) : IsLabels (label :: labels) := by
  intro l hl
  rcases List.mem_cons.mp hl with rfl | hl
  · exact ⟨hpos, hlt⟩
  · exact h l hl

/-- Without a NUL in a label, the string is the whole of its text. -/
theorem text_dotted {labels : List (List UInt8)} (h : ∀ label ∈ labels, dot ∉ label ∧ 0 ∉ label) :
    Libc.text (dotted labels) = dotted labels := by
  refine List.takeWhile_eq_self_iff.mpr fun c hc => decide_eq_true fun h0 => ?_
  subst h0
  cases labels with
  | nil => exact absurd hc (by decide)
  | cons label labels =>
    rcases List.mem_append.mp hc with hc | hc
    · exact (h label (by simp)).2 hc
    · obtain ⟨l, hl, hc⟩ := List.mem_flatMap.mp hc
      rcases List.mem_cons.mp hc with hc | hc
      · exact absurd hc (by decide)
      · exact (h l (by simp [hl])).2 hc

section
variable {buf : ℕ → UInt8} {outlen : ℕ}

/-- A label on the wire and the rest of the name after it. -/
theorem stretch_wireName_cons {pos : ℕ} {label : List UInt8} {labels : List (List UInt8)}
    (hlabel : Blocks.stretch buf pos (1 + label.length) = UInt8.ofNat label.length :: label)
    (hrest : Blocks.stretch buf (pos + 1 + label.length) (wireName labels).length = wireName labels) :
    Blocks.stretch buf pos (wireName (label :: labels)).length = wireName (label :: labels) := by
  rw [wireName_cons, List.length_cons, List.length_append, Nat.add_comm _ 1, ← Nat.add_assoc,
    ← Blocks.stretch_append, hlabel, ← Nat.add_assoc, hrest]
  rfl

/-- Inside a label the loop copies bytes. -/
theorem decodeLoop_copy (k : ℕ) : ∀ (left pos : ℕ) (out : List UInt8),
    (decodeLoop buf outlen (left + k) pos left out).val =
      (decodeLoop buf outlen k (pos + left) 0 (out ++ Blocks.stretch buf pos left)).val := by
  intro left
  induction left with
  | zero => simp
  | succ left ih =>
    intro pos out
    rw [Nat.add_right_comm, decodeLoop]
    simp only [val_bind]
    rw [ih, Blocks.stretch_succ, Nat.add_assoc pos, Nat.add_comm 1 left]
    simp

/-- A label that goes on to the end of the datagram is no part of a name. -/
theorem decodeLoop_cut : ∀ (remaining pos left : ℕ) (out : List UInt8), remaining ≤ left →
    (decodeLoop buf outlen remaining pos left out).val = none := by
  intro remaining
  induction remaining with
  | zero => exact fun _ _ _ _ => rfl
  | succ remaining ih =>
    intro pos left out hle
    obtain ⟨left, rfl⟩ := Nat.exists_eq_succ_of_ne_zero (show left ≠ 0 by omega)
    exact ih (pos + 1) left (out ++ [buf pos]) (by omega)

/-- A length byte for whose label the string has room: a dot, except before the first label, and on to
    the bytes of the label. -/
theorem decodeLoop_enter {remaining pos : ℕ} {out : List UInt8} (hlen : buf pos ≠ 0)
    (hroom : out.length + (buf pos).toNat + 1 < outlen) :
    (decodeLoop buf outlen (remaining + 1) pos 0 out).val =
      (decodeLoop buf outlen remaining (pos + 1) (buf pos).toNat
        (if out = [] then out else out ++ [dot])).val := by
  rw [decodeLoop]
  simp only [val_bind, if_neg hlen, if_neg (Nat.not_le.mpr hroom)]
  by_cases hout : out = []
  · rw [if_pos hout, if_pos hout]
  · rw [if_neg hout, if_neg hout]
    rfl

/-- One label: its length byte, the check that the string has room for it, and its bytes. -/
theorem decodeLoop_label {remaining pos consumed : ℕ} {out qname : List UInt8} (hlen : buf pos ≠ 0)
    (h : (decodeLoop buf outlen (remaining + 1) pos 0 out).val = some (qname, consumed)) :
    ∃ label k, 1 ≤ label.length ∧ label.length ≤ 255 ∧ remaining = label.length + k ∧
      Blocks.stretch buf pos (1 + label.length) = UInt8.ofNat label.length :: label ∧
      out.length + label.length + 1 < outlen ∧
      (decodeLoop buf outlen k (pos + 1 + label.length) 0
        ((if out = [] then out else out ++ [dot]) ++ label)).val = some (qname, consumed) := by
  have hpos : 0 < (buf pos).toNat := by
    rw [Nat.pos_iff_ne_zero]
    exact fun h0 => hlen (UInt8.toNat_inj.mp h0)
  have hlt := (buf pos).toNat_lt
  have hstretch : Blocks.stretch buf pos (1 + (buf pos).toNat) =
      UInt8.ofNat (buf pos).toNat :: Blocks.stretch buf (pos + 1) (buf pos).toNat := by
    rw [Nat.add_comm, Blocks.stretch_succ, UInt8.ofNat_toNat]
  rcases Nat.lt_or_ge (out.length + (buf pos).toNat + 1) outlen with hroom | hfull
  · rw [decodeLoop_enter hlen hroom] at h
    rcases Nat.lt_or_ge remaining (buf pos).toNat with hcut | hle
    · rw [decodeLoop_cut _ _ _ _ hcut.le] at h
      cases h
    · obtain ⟨k, rfl⟩ := Nat.exists_eq_add_of_le hle
      rw [decodeLoop_copy] at h
      refine ⟨Blocks.stretch buf (pos + 1) (buf pos).toNat, k, ?_⟩
      rw [Blocks.length_stretch]
      exact ⟨hpos, by omega, rfl, hstretch, hroom, h⟩
  · rw [decodeLoop] at h
    simp only [val_bind, if_neg hlen, if_pos hfull] at h
    cases h

/-- The rest of a name, after the first label: each label comes with a dot. -/
theorem decodeLoop_rest : ∀ (remaining : ℕ) {pos consumed : ℕ} {out qname : List UInt8}, out ≠ [] →
    out.length < outlen →
    (decodeLoop buf outlen remaining pos 0 out).val = some (qname, consumed) →
    ∃ labels, IsLabels labels ∧ consumed = pos + (wireName labels).length ∧
      consumed ≤ pos + remaining ∧
      Blocks.stretch buf pos (wireName labels).length = wireName labels ∧
      qname = out ++ labels.flatMap (dot :: ·) ∧ qname.length < outlen := by
  intro remaining
  induction remaining using Nat.strongRecOn with
  | ind remaining ih =>
    intro pos consumed out qname hout hroom h
    cases remaining with
    | zero => cases h
    | succ remaining =>
      by_cases hlen : buf pos = 0
      · rw [decodeLoop] at h
        simp only [val_bind, if_pos hlen, if_neg hout] at h
        cases h
        refine ⟨[], by simp [IsLabels], rfl, by omega, ?_, by simp, hroom⟩
        simpa [Blocks.stretch] using hlen
      · obtain ⟨label, k, hpos, hlt, rfl, hstretch, hfits, hgo⟩ := decodeLoop_label hlen h
        rw [if_neg hout] at hgo
        obtain ⟨labels, hlabels, rfl, hin, hrest, rfl, hshort⟩ :=
          ih k (by omega) (by simp) (by simpa using by omega) hgo
        refine ⟨label :: labels, hlabels.cons hpos hlt, ?_, by omega,
          stretch_wireName_cons hstretch hrest, by simp, hshort⟩
        simp only [wireName_cons, List.length_cons, List.length_append]
        omega

/-- SPEC of the decoder: what it accepts starts with the wire format of labels, and the string is
    made of them. -/
theorem dnsDecodeQname_labels {buflen consumed : ℕ} {qname : List UInt8} (hout : 2 ≤ outlen)
    (h : (dnsDecodeQname buf buflen outlen).val = some (qname, consumed)) :
    ∃ labels, IsLabels labels ∧ consumed = (wireName labels).length ∧ consumed ≤ buflen ∧
      Blocks.stretch buf 0 (wireName labels).length = wireName labels ∧
      qname = dotted labels ∧ qname.length < outlen := by
  unfold dnsDecodeQname at h
  cases buflen with
  | zero => cases h
  | succ buflen =>
    by_cases hlen : buf 0 = 0
    · rw [decodeLoop] at h
      simp only [val_bind, if_pos hlen, if_true] at h
      cases h
      refine ⟨[], by simp [IsLabels], rfl, by omega, ?_, rfl, hout⟩
      simpa [Blocks.stretch] using hlen
    · obtain ⟨label, k, hpos, hlt, rfl, hstretch, hfits, hgo⟩ := decodeLoop_label hlen h
      rw [if_pos rfl, List.nil_append] at hgo
      have hne : label ≠ [] := List.ne_nil_of_length_pos hpos
      obtain ⟨labels, hlabels, rfl, hin, hrest, rfl, hshort⟩ :=
        decodeLoop_rest k hne (by simp at hfits; omega) hgo
      refine ⟨label :: labels, hlabels.cons hpos hlt, ?_, by omega,
        stretch_wireName_cons hstretch hrest, rfl, hshort⟩
      simp only [wireName_cons, List.length_cons, List.length_append]
      omega

end

/-! ### Encoding -/

/-- The pieces of a string between its dots, the first one with what stands before it. -/
def pieces (label name : List UInt8) : List (List UInt8) :=
  (name.splitOn dot).modifyHead (label ++ ·)

/-- The labels that a string is encoded to: the pieces up to the first empty one. -/
def labelsOf (name : List UInt8) : List (List UInt8) :=
  ((Libc.text name).splitOn dot).takeWhile (· ≠ [])

theorem pieces_nil (label : List UInt8) : pieces label [] = [label] := by simp [pieces]

theorem pieces_whole (name : List UInt8) : pieces [] name = name.splitOn dot :=
  congrFun List.modifyHead_id _

theorem pieces_dot (label rest : List UInt8) :
    pieces label (dot :: rest) = label :: pieces [] rest := by
  rw [pieces_whole]
  simp [pieces, List.splitOn, List.splitOnP_cons_eq_if_modifyHead]

theorem pieces_cons {c : UInt8} (hc : c ≠ dot) (label rest : List UInt8) :
    pieces label (c :: rest) = pieces (label ++ [c]) rest := by
  have hcomp : (label ++ ·) ∘ List.cons c = fun x => label ++ [c] ++ x := by
    funext x
    simp
  simp [pieces, List.splitOn, List.splitOnP_cons_eq_if_modifyHead, hc, List.modifyHead_modifyHead,
    hcomp]

/-- The loop of the encoder writes the pieces as labels, and stops at an empty one. -/
theorem encodeLoop_pieces {outlen : ℕ} : ∀ {name label out r : List UInt8},
    encodeLoop outlen name label out = some r →
      r = out ++ ((pieces label name).takeWhile (· ≠ [])).flatMap
        fun label => UInt8.ofNat label.length :: label
  | [], label, out, r, h => by
    rw [encodeLoop] at h
    rw [pieces_nil]
    split at h
    · rename_i hlabel
      cases h
      simp [hlabel]
    · rename_i hlabel
      rw [putLabel] at h
      split at h
      · cases h
      · cases h
        simp [hlabel]
  | c :: rest, label, out, r, h => by
    rw [encodeLoop] at h
    split at h
    · rename_i hc
      rw [pieces_cons hc]
      exact encodeLoop_pieces h
    · rename_i hc
      rw [not_not.mp hc, pieces_dot]
      split at h
      · rename_i hlabel
        cases h
        simp [hlabel]
      · rename_i hlabel
        obtain ⟨out', hput, hrest⟩ := Option.bind_eq_some_iff.mp h
        rw [encodeLoop_pieces hrest]
        rw [putLabel] at hput
        split at hput
        · cases hput
        · cases hput
          simp [hlabel]

/-- SPEC of the encoder. -/
theorem dnsEncodeQname_labels {name r : List UInt8} {outlen : ℕ}
    (h : dnsEncodeQname name outlen = some r) : r = wireName (labelsOf name) := by
  obtain ⟨out, hloop, h⟩ := Option.bind_eq_some_iff.mp h
  have hout := encodeLoop_pieces hloop
  rw [pieces_whole, List.nil_append] at hout
  split at h
  · cases h
  · cases h
    rw [hout]
    rfl

/-- A piece has no dot in it, and its bytes are bytes of the string. -/
theorem mem_pieces : ∀ {name label piece : List UInt8}, dot ∉ label → piece ∈ pieces label name →
    dot ∉ piece ∧ piece.Sublist (label ++ name)
  | [], label, piece, hdot, h => by
    rw [pieces_nil, List.mem_singleton] at h
    subst h
    simpa using hdot
  | c :: rest, label, piece, hdot, h => by
    by_cases hc : c = dot
    · subst hc
      rw [pieces_dot, List.mem_cons] at h
      rcases h with rfl | h
      · exact ⟨hdot, List.sublist_append_left ..⟩
      · obtain ⟨hpiece, hsub⟩ := mem_pieces List.not_mem_nil h
        exact ⟨hpiece, (hsub.cons dot).trans (List.sublist_append_right ..)⟩
    · rw [pieces_cons hc] at h
      obtain ⟨hpiece, hsub⟩ := mem_pieces (by simp [hdot, Ne.symm hc]) h
      exact ⟨hpiece, by simpa using hsub⟩

/-- No label of a string has a dot or a NUL, and none is longer than the string. -/
theorem mem_labelsOf {name label : List UInt8} (h : label ∈ labelsOf name) :
    (1 ≤ label.length ∧ label.length ≤ name.length) ∧ dot ∉ label ∧ 0 ∉ label := by
  have hpiece : label ∈ pieces [] (Libc.text name) := by
    rw [pieces_whole]
    exact (List.takeWhile_sublist _).subset h
  have hne : label ≠ [] := by simpa using List.mem_takeWhile_imp h
  obtain ⟨hdot, hsub⟩ := mem_pieces List.not_mem_nil hpiece
  have htext : (Libc.text name).Sublist name := List.takeWhile_sublist _
  refine ⟨⟨List.length_pos_iff.mpr hne, (hsub.trans htext).length_le⟩, hdot, fun h0 => ?_⟩
  have := List.mem_takeWhile_imp (hsub.subset h0)
  simp at this

/-- Names survive the way through the string exactly if no label has a dot or a NUL. -/
theorem labelsOf_dotted_iff {labels : List (List UInt8)} (hlabels : IsLabels labels) :
    labelsOf (dotted labels) = labels ↔ ∀ label ∈ labels, dot ∉ label ∧ 0 ∉ label := by
  constructor
  · intro h label hlabel
    rw [← h] at hlabel
    exact (mem_labelsOf hlabel).2
  · intro hclean
    rcases eq_or_ne labels [] with rfl | hne
    · rfl
    have hne' : ∀ label ∈ labels, label ≠ [] := fun label hl =>
      List.length_pos_iff.mp (hlabels label hl).1
    rw [labelsOf, text_dotted hclean, dotted_eq_intercalate hne,
      List.splitOn_intercalate dot (fun label hl => (hclean label hl).1) hne]
    exact List.takeWhile_eq_self_iff.mpr (by simpa using hne')

/-! ### The responder's own names -/

theorem lower_eq_dot {c : UInt8} : lower c = dot ↔ c = dot := lower_eq_iff (by decide)

theorem map_lower_dotted (labels : List (List UInt8)) :
    (dotted labels).map lower = dotted (labels.map (·.map lower)) := by
  have hdot : lower dot = dot := by decide
  cases labels with
  | nil => simp [dotted, hdot]
  | cons label labels => simp [dotted, hdot, List.map_flatMap, List.flatMap_map]

/-- Labels without dots are told apart by their strings. -/
theorem dotted_inj {ls ms : List (List UInt8)} (hls : ∀ l ∈ ls, dot ∉ l) (hms : ∀ m ∈ ms, dot ∉ m)
    (hne : ls ≠ []) (hne' : ms ≠ []) (h : dotted ls = dotted ms) : ls = ms := by
  rw [dotted_eq_intercalate hne, dotted_eq_intercalate hne'] at h
  rw [← List.splitOn_intercalate dot hls hne, h, List.splitOn_intercalate dot hms hne']

/-- Where no label has a dot or a NUL, the responder knows its own names and no others. -/
theorem dnsKnown_dotted {labels : List (List UInt8)}
    (hclean : ∀ label ∈ labels, dot ∉ label ∧ 0 ∉ label) :
    dnsKnown (dotted labels) = true ↔ IsOwn labels := by
  have hlower : ∀ l ∈ labels.map (·.map lower), dot ∉ l := by
    intro l hl hdot
    obtain ⟨label, hlabel, rfl⟩ := List.mem_map.mp hl
    obtain ⟨c, hc, hcdot⟩ := List.mem_map.mp hdot
    exact (hclean label hlabel).1 (lower_eq_dot.mp hcdot ▸ hc)
  rw [dnsKnown_iff, text_dotted hclean, map_lower_dotted, IsOwn]
  rcases eq_or_ne labels [] with rfl | hne
  · decide
  have hne' : labels.map (·.map lower) ≠ [] := by simpa using hne
  have hone : vlsos = dotted [vlsos] := by decide
  have htwo : vlsosLocal = dotted [vlsos, [108, 111, 99, 97, 108]] := by decide
  constructor
  · rintro (h | h)
    · rw [htwo] at h
      exact .inr (dotted_inj hlower (by decide) hne' (by simp) h)
    · rw [hone] at h
      exact .inl (dotted_inj hlower (by decide) hne' (by simp) h)
  · rintro (h | h)
    · rw [h]
      exact .inr hone.symm
    · rw [h]
      exact .inl htwo.symm

/-! ### The response -/

theorem questionField_toNat (buf : ℕ → UInt8) (pos : ℕ) :
    (questionField buf pos).toNat = 256 * (buf pos).toNat + (buf (pos + 1)).toNat := by
  have hhigh := (buf pos).toNat_lt
  have hlow := (buf (pos + 1)).toNat_lt
  have hor := Nat.two_pow_add_eq_or_of_lt hlow (buf pos).toNat
  simp only [questionField, UInt16.toNat_or, UInt16.toNat_shiftLeft, UInt8.toNat_toUInt16,
    UInt16.reduceToNat, Nat.reduceMod, Nat.shiftLeft_eq]
  rw [Nat.mod_eq_of_lt (by omega), Nat.mul_comm, ← hor]

theorem questionField_eq_one {buf : ℕ → UInt8} {pos : ℕ} :
    questionField buf pos = 1 ↔ buf pos = 0 ∧ buf (pos + 1) = 1 := by
  have hlow := (buf (pos + 1)).toNat_lt
  simp only [← UInt16.toNat_inj, ← UInt8.toNat_inj, questionField_toNat, UInt16.reduceToNat,
    UInt8.reduceToNat]
  omega

/-- Type A and class IN, as the four bytes after the name. -/
theorem asked_iff {buf : ℕ → UInt8} {pos : ℕ} :
    (questionField buf pos = 1 ∧ questionField buf (pos + 2) = 1) ↔
      Blocks.stretch buf pos 4 = [0, 1, 0, 1] := by
  rw [questionField_eq_one, questionField_eq_one]
  simp [Blocks.stretch, List.range_succ, and_assoc, Nat.add_assoc]

theorem answerData_record (s : NetState) : ∃ ttl address : List UInt8, ttl.length = 4 ∧
    address.length = 4 ∧ answerData s = [0, 1, 0, 1] ++ ttl ++ [0, 4] ++ address := by
  unfold answerData
  cases netGetInterface s eth0 with
  | none => exact ⟨[0, 0, 1, 0x2C], [0, 0, 0, 0], rfl, rfl, rfl⟩
  | some iface => exact ⟨[0, 0, 1, 0x2C], iface.ipAddr.toList, rfl, by simp, rfl⟩

/-- What follows the question is an address record or not, in whatever way it is read. -/
theorem includesAddress_iff {message fixed answer : List UInt8} {labels : List (List UInt8)}
    (hlabels : IsLabels labels) (hsize : fixed.length = 4)
    (h : message.drop 12 = wireName labels ++ (fixed ++ answer)) :
    IncludesAddress message ↔ IsAddressRecord answer := by
  constructor
  · rintro ⟨labels', fixed', record, hlabels', hsize', hrecord, h'⟩
    obtain ⟨-, hrest⟩ := wireName_append_inj hlabels hlabels' (h.symm.trans h')
    obtain ⟨-, rfl⟩ := List.append_inj hrest (hsize.trans hsize'.symm)
    exact hrecord
  · exact fun hrecord => ⟨labels, fixed, answer, hlabels, hsize, hrecord, h⟩

/-- The question that the decoder has read. -/
theorem decoded_question {buf : ℕ → UInt8} {n consumed : ℕ} {qname : List UInt8}
    (hdecoded : (dnsDecodeQname (fun i => buf (12 + i)) (n - 12) dnsMaxQname).val =
      some (qname, consumed)) (hreceived : 12 + consumed + 4 ≤ n) :
    ∃ labels, FirstQuestion (Blocks.stretch buf 0 n) labels (Blocks.stretch buf (12 + consumed) 4) ∧
      qname = dotted labels ∧ IsLabels (labelsOf (dotted labels)) ∧
      consumed = (wireName labels).length := by
  obtain ⟨labels, hlabels, rfl, -, hstretch, rfl, hshort⟩ := dnsDecodeQname_labels (by decide) hdecoded
  refine ⟨labels, ⟨hlabels, Blocks.length_stretch .., ?_⟩, rfl, fun label hlabel => ?_, rfl⟩
  · have hname : Blocks.stretch buf 12 (wireName labels).length = wireName labels :=
      (Blocks.stretch_congr fun i _ => by rw [Nat.zero_add]).trans hstretch
    obtain ⟨k, rfl⟩ := Nat.exists_eq_add_of_le hreceived
    refine ⟨Blocks.stretch buf (12 + (wireName labels).length + 4) k, ?_⟩
    rw [Blocks.stretch_drop, Nat.zero_add, Nat.add_assoc, Nat.add_assoc, Nat.add_sub_cancel_left,
      ← Blocks.stretch_append, hname, ← Blocks.stretch_append]
  · obtain ⟨⟨hpos, hle⟩, -⟩ := mem_labelsOf hlabel
    rw [dnsMaxQname] at hshort
    exact ⟨hpos, by omega⟩

/-- INVERSION: the question of the query, and what the response has after its header. -/
theorem dnsPoll_sections {s : NetState} {buf : ℕ → UInt8} {n : ℕ} {resp : List UInt8}
    (h : dnsPoll s buf n = some resp) :
    ∃ labels fixed answer, FirstQuestion (Blocks.stretch buf 0 n) labels fixed ∧
      IsLabels (labelsOf (dotted labels)) ∧
      resp.drop 12 = wireName (labelsOf (dotted labels)) ++ (fixed ++ answer) ∧
      answer = if fixed = [0, 1, 0, 1] ∧ dnsKnown (dotted labels) = true
        then wireName (labelsOf (dotted labels)) ++ answerData s else [] := by
  have hhdr (flags ancount : UInt16) (rest : List UInt8) :
      ((responseHdr buf flags ancount).bytes ++ rest).drop 12 = rest := List.drop_left' rfl
  cases dnsPoll_response h with
  | known hdecoded hreceived hencoded _ hown hasked hagain =>
    obtain ⟨labels, hfirst, rfl, hlabels, rfl⟩ := decoded_question hdecoded hreceived
    refine ⟨labels, _, _, hfirst, hlabels, ?_, (if_pos ⟨asked_iff.mp hasked, hown⟩).symm⟩
    rw [List.append_assoc, hhdr, dnsEncodeQname_labels hencoded, dnsEncodeQname_labels hagain,
      List.append_assoc]
  | refused hdecoded hreceived hencoded _ _ hother =>
    obtain ⟨labels, hfirst, rfl, hlabels, rfl⟩ := decoded_question hdecoded hreceived
    refine ⟨labels, _, [], hfirst, hlabels, ?_, (if_neg ?_).symm⟩
    · rw [hhdr, dnsEncodeQname_labels hencoded, List.append_nil]
    · rintro ⟨hasked, hown⟩
      rw [hother (asked_iff.mpr hasked)] at hown
      cases hown

/-- EXACT: a response repeats the question of the query, and has an address record just for the
    responder's own names, precisely if no label of the query's name has a dot or a NUL in it. -/
theorem dns_echo_iff {s : NetState} {buf : ℕ → UInt8} {n : ℕ} {resp : List UInt8}
    (h : dnsPoll s buf n = some resp) :
    (∃ labels fixed, FirstQuestion (Blocks.stretch buf 0 n) labels fixed) ∧
      ∀ labels fixed, FirstQuestion (Blocks.stretch buf 0 n) labels fixed →
        (FirstQuestion resp labels fixed ∧
            (IncludesAddress resp ↔ fixed = [0, 1, 0, 1] ∧ IsOwn labels) ↔
          ∀ label ∈ labels, dot ∉ label ∧ 0 ∉ label) := by
  obtain ⟨labels, fixed, answer, hfirst, hlabels, hresp, hanswer⟩ := dnsPoll_sections h
  refine ⟨⟨labels, fixed, hfirst⟩, fun labels' fixed' hfirst' => ?_⟩
  obtain ⟨rfl, rfl⟩ := hfirst.unique hfirst'
  have hsection : FirstQuestion resp (labelsOf (dotted labels)) fixed := ⟨hlabels, hfirst.size, _, hresp⟩
  constructor
  · rintro ⟨hecho, -⟩
    exact (labelsOf_dotted_iff hfirst.valid).mp (hsection.unique hecho).1
  · intro hclean
    have hecho := (labelsOf_dotted_iff hfirst.valid).mpr hclean
    rw [hecho] at hsection
    refine ⟨hsection, ?_⟩
    rw [includesAddress_iff hlabels hfirst.size hresp, ← dnsKnown_dotted hclean, hanswer]
    split
    · rename_i hown
      obtain ⟨ttl, address, httl, haddress, hdata⟩ := answerData_record s
      exact iff_of_true ⟨_, ttl, address, hlabels, httl, haddress, by rw [hdata]⟩ hown
    · rename_i hown
      refine iff_of_false ?_ hown
      rintro ⟨owner, ttl, address, -, -, -, hnil⟩
      simp [wireName] at hnil

theorem dns_echo_iff_sample :
    FirstQuestion (Blocks.stretch sampleQuery 0 23) [vlsos] [0, 1, 0, 1] ∧
      FirstQuestion ([0x12, 0x34, 0x00, 0x80, 0, 1, 1, 0] ++ sampleSections) [vlsos] [0, 1, 0, 1] ∧
      IncludesAddress ([0x12, 0x34, 0x00, 0x80, 0, 1, 1, 0] ++ sampleSections) := by
  have hfirst : FirstQuestion (Blocks.stretch sampleQuery 0 23) [vlsos] [0, 1, 0, 1] :=
    ⟨by decide, rfl, [], by decide⟩
  obtain ⟨hecho, haddress⟩ :=
    ((dns_echo_iff dnsPoll_sampleQuery).2 _ _ hfirst).mpr (by decide)
  exact ⟨hfirst, hecho, haddress.mpr ⟨rfl, .inl (by decide)⟩⟩

/-- A query for the address of one label of eleven bytes, `vlsos.local`. -/
def dottedQuery (i : ℕ) : UInt8 :=
  ([0x12, 0x34, 0x01, 0x00, 0, 1, 0, 0, 0, 0, 0, 0, 11] ++ vlsosLocal ++ [0, 0, 1, 0, 1]).getD i 0

/-- The response to it: a question with two labels, and an address for it. -/
def dottedResponse : List UInt8 :=
  [0x12, 0x34, 0x00, 0x80, 0, 1, 1, 0, 0, 0, 0, 0] ++
    (wireName [vlsos, [108, 111, 99, 97, 108]] ++ ([0, 1, 0, 1] ++
      (wireName [vlsos, [108, 111, 99, 97, 108]] ++
        ([0, 1, 0, 1] ++ [0, 0, 1, 44] ++ [0, 4] ++ [192, 168, 1, 100]))))

/-- The question is not the query's, and the address is not for a name of the responder. -/
theorem dns_question_changed :
    dnsPoll sampleHost dottedQuery 29 = some dottedResponse ∧
      FirstQuestion (Blocks.stretch dottedQuery 0 29) [vlsosLocal] [0, 1, 0, 1] ∧
      FirstQuestion dottedResponse [vlsos, [108, 111, 99, 97, 108]] [0, 1, 0, 1] ∧
      ¬FirstQuestion dottedResponse [vlsosLocal] [0, 1, 0, 1] ∧
      ¬IsOwn [vlsosLocal] ∧ IncludesAddress dottedResponse := by
  have hown : IsLabels [vlsos, [108, 111, 99, 97, 108]] := by decide
  have hquestion : FirstQuestion dottedResponse [vlsos, [108, 111, 99, 97, 108]] [0, 1, 0, 1] :=
    ⟨hown, rfl, _, rfl⟩
  refine ⟨by decide +kernel, ⟨by decide, rfl, [], by decide⟩, hquestion, fun h => ?_, by decide, ?_⟩
  · exact absurd (hquestion.unique h).1 (by decide)
  · exact ⟨_, [0, 1, 0, 1], _, hown, rfl, ⟨_, _, _, hown, rfl, rfl, rfl⟩, rfl⟩

end VlsOs.Net
