import VlsOs.Net.Send
import VlsOs.Schemes.History
import VlsOs.Schemes.Run

/-! The ARP cache (`arp_init`, `arp_cache_learn`, `arp_lookup` of `net/arp.c`) as a map.

    The cache is a table of at most 32 entries that are never removed. Learning a known address
    changes its entry, learning a new one appends an entry while there is room. What the table holds
    is therefore a function of the addresses learnt, oldest first: a map with room for 32 keys in
    which the last writer wins.

        learnt     (ip₀,m₀) (ip₁,m₁) (ip₀,m₂) ⋯        History.held 32
        entries    ip₀ ↦ m₂   ip₁ ↦ m₁   ⋯  ≤ 32       History.admitted 32 -/

namespace VlsOs.Net
open Patterns Patterns.Trace

def arpInit (s : NetState) : NetState := { s with arpCache := ⟨[], by simp⟩ }

/-! ### The table and the history -/

/-- The table holds what the bounded map holds after the given writes. -/
structure Caches (cache : ArpCache) (learnt : List (Ipv4Addr × MacAddr)) : Prop where
  keys : cache.entries.map ArpCacheEntry.ip = History.admitted 32 learnt
  valid : ∀ e ∈ cache.entries, e.valid = true
  latest : ∀ e ∈ cache.entries, History.latest learnt e.ip = some e.mac

section Cache
variable {cache : ArpCache} {learnt : List (Ipv4Addr × MacAddr)} {ip : Ipv4Addr} {mac : MacAddr}

/-- The entry that a search for the address stops at, and that no search stops at one. -/
theorem findIdx?_ip {i : ℕ} (hfind : (cache.entries.findIdx? fun e =>
    memcmp e.ip.toList ip.toList = 0) = some i) : ∃ hi : i < cache.entries.length,
    (cache.entries.get ⟨i, hi⟩).ip = ip := by
  obtain ⟨hi, hmatch, -⟩ := List.findIdx?_eq_some_iff_getElem.mp hfind
  exact ⟨hi, by simpa [memcmp_eq_zero] using hmatch⟩

theorem findIdx?_ip_none (hfind : (cache.entries.findIdx? fun e =>
    memcmp e.ip.toList ip.toList = 0) = none) : ∀ e ∈ cache.entries, e.ip ≠ ip := by
  intro e he
  simpa [memcmp_eq_zero] using List.findIdx?_eq_none_iff.mp hfind e he

/-- The addresses in the table after a learn. -/
theorem keys_arpCacheLearn (cache : ArpCache) (ip : Ipv4Addr) (mac : MacAddr) :
    (arpCacheLearn cache ip mac).entries.map ArpCacheEntry.ip =
      if ip ∈ cache.entries.map ArpCacheEntry.ip ∨ 32 ≤ cache.entries.length
      then cache.entries.map ArpCacheEntry.ip else cache.entries.map ArpCacheEntry.ip ++ [ip] := by
  unfold arpCacheLearn
  cases hfind : cache.entries.findIdx? fun e => memcmp e.ip.toList ip.toList = 0 with
  | some i =>
    obtain ⟨hi, hip⟩ := findIdx?_ip hfind
    rw [if_pos (.inl (List.mem_map.mpr ⟨_, List.get_mem .., hip⟩))]
    refine List.ext_getElem (by simp) fun j _ _ => ?_
    rw [List.getElem_map, List.getElem_modify, List.getElem_map]
    split <;> rfl
  | none =>
    have hnew : ip ∉ cache.entries.map ArpCacheEntry.ip := by
      rw [List.mem_map]
      rintro ⟨e, he, heq⟩
      exact findIdx?_ip_none hfind e he heq
    dsimp only
    split
    · rw [if_neg (not_or.mpr ⟨hnew, by omega⟩), List.map_append]
      rfl
    · rw [if_pos (.inr (by omega))]

/-- An address in the table stays there. -/
theorem mem_keys_learn {k : Ipv4Addr} (hk : k ∈ cache.entries.map ArpCacheEntry.ip) :
    k ∈ (arpCacheLearn cache ip mac).entries.map ArpCacheEntry.ip := by
  rw [keys_arpCacheLearn]
  split
  · exact hk
  · exact List.mem_append_left _ hk

/-- With room, the address learnt gets into the table. -/
theorem self_mem_keys_learn (hroom : cache.entries.length < 32) :
    ip ∈ (arpCacheLearn cache ip mac).entries.map ArpCacheEntry.ip := by
  rw [keys_arpCacheLearn]
  split
  · rename_i hknown
    exact hknown.resolve_right hroom.not_ge
  · exact List.mem_append_right _ (List.mem_singleton_self ip)

/-- An entry after a learn is the one learnt, or an old one for another address. -/
theorem mem_arpCacheLearn (hkeys : (cache.entries.map ArpCacheEntry.ip).Nodup) {e : ArpCacheEntry}
    (he : e ∈ (arpCacheLearn cache ip mac).entries) :
    e = ⟨ip, mac, true⟩ ∨ e ∈ cache.entries ∧ e.ip ≠ ip := by
  unfold arpCacheLearn at he
  cases hfind : cache.entries.findIdx? fun e => memcmp e.ip.toList ip.toList = 0 with
  | some i =>
    obtain ⟨hi, hip⟩ := findIdx?_ip hfind
    rw [hfind] at he
    obtain ⟨j, hj, rfl⟩ := List.mem_iff_getElem.mp he
    rw [List.length_modify] at hj
    rw [List.getElem_modify]
    split
    · subst i
      exact .inl (by simpa using hip)
    · refine .inr ⟨List.getElem_mem _, fun hsame => ‹i ≠ j› ?_⟩
      have hi' : i < (cache.entries.map ArpCacheEntry.ip).length := by simpa using hi
      have hj' : j < (cache.entries.map ArpCacheEntry.ip).length := by simpa using hj
      have hips : (cache.entries.map ArpCacheEntry.ip)[i] = (cache.entries.map ArpCacheEntry.ip)[j] := by
        rw [List.getElem_map, List.getElem_map]
        exact hip.trans hsame.symm
      exact hkeys.getElem_inj_iff.mp hips
  | none =>
    have hnew := findIdx?_ip_none hfind
    rw [hfind] at he
    dsimp only at he
    split at he
    · rcases List.mem_append.mp he with hold | hlearnt
      · exact .inr ⟨hold, hnew e hold⟩
      · exact .inl (List.mem_singleton.mp hlearnt)
    · exact .inr ⟨he, hnew e he⟩

/-- An empty table is what nothing was learnt for. -/
theorem caches_empty (h : cache.entries = []) : Caches cache [] := by
  constructor <;> simp [h, History.admitted, History.firsts]

theorem Caches.mem_admitted (h : Caches cache learnt) :
    ip ∈ History.admitted 32 learnt ↔ ∃ e ∈ cache.entries, e.ip = ip := by
  rw [← h.keys, List.mem_map]

/-- STEP: `arp_cache_learn` is a write. -/
theorem Caches.learn (h : Caches cache learnt) (ip : Ipv4Addr) (mac : MacAddr) :
    Caches (arpCacheLearn cache ip mac) (learnt ++ [(ip, mac)]) := by
  have hkeys : (cache.entries.map ArpCacheEntry.ip).Nodup := h.keys ▸ History.nodup_admitted ..
  refine ⟨?_, fun e he => ?_, fun e he => ?_⟩
  · rw [keys_arpCacheLearn, History.admitted_concat, ← h.keys, List.length_map]
    congr
  · rcases mem_arpCacheLearn hkeys he with rfl | ⟨hold, -⟩
    · rfl
    · exact h.valid e hold
  · rw [History.latest_concat]
    rcases mem_arpCacheLearn hkeys he with rfl | ⟨hold, hne⟩
    · rw [if_pos rfl]
    · rw [if_neg hne.symm, h.latest e hold]

/-- SPEC of `arp_lookup`: what the map holds, or the broadcast address. -/
theorem Caches.lookup {s : NetState} (h : Caches s.arpCache learnt) (ip : Ipv4Addr) :
    (arpLookup s ip).val.1 = (History.held 32 learnt ip).getD broadcastMac := by
  unfold arpLookup
  cases hfind : s.arpCache.entries.find? fun e => e.valid && memcmp e.ip.toList ip.toList = 0 with
  | some e =>
    have he := List.mem_of_find?_eq_some hfind
    have hip : e.ip = ip := by simpa [memcmp_eq_zero, h.valid e he] using List.find?_some hfind
    rw [History.held, if_pos (h.mem_admitted.mpr ⟨e, he, hip⟩), ← hip, h.latest e he]
    rfl
  | none =>
    have hmiss : ip ∉ History.admitted 32 learnt := by
      rintro hip
      obtain ⟨e, he, heq⟩ := h.mem_admitted.mp hip
      have := List.find?_eq_none.mp hfind e he
      simp [memcmp_eq_zero, heq, h.valid e he] at this
    rw [History.held, if_neg hmiss]
    rfl

/-- An entry of the table is what its address resolves to. -/
theorem Caches.lookup_entry {s : NetState} (h : Caches s.arpCache learnt) {e : ArpCacheEntry}
    (he : e ∈ s.arpCache.entries) : (arpLookup s e.ip).val.1 = e.mac := by
  rw [h.lookup, History.held, if_pos (h.mem_admitted.mpr ⟨e, he, rfl⟩), h.latest e he]
  rfl

end Cache

/-! ### Runs -/

/-- A call of `arp_cache_learn` or of `arp_lookup`. -/
inductive CacheOp
  | learn (ip : Ipv4Addr) (mac : MacAddr)
  | lookup (ip : Ipv4Addr)

/-- The call, with the address that a lookup returns. -/
def cacheStep (s : NetState) : CacheOp → NetState × Option MacAddr
  | .learn ip mac => ({ s with arpCache := arpCacheLearn s.arpCache ip mac }, none)
  | .lookup ip => ((arpLookup s ip).val.2, some (arpLookup s ip).val.1)

/-- The bounded map: its state is the writes so far. -/
def mapStep (learnt : List (Ipv4Addr × MacAddr)) :
    CacheOp → List (Ipv4Addr × MacAddr) × Option MacAddr
  | .learn ip mac => (learnt ++ [(ip, mac)], none)
  | .lookup ip => (learnt, some ((History.held 32 learnt ip).getD broadcastMac))

/-- The learns of a sequence of calls, in order. -/
def learns (ops : List CacheOp) : List (Ipv4Addr × MacAddr) :=
  ops.filterMap fun op =>
    match op with
    | .learn ip mac => some (ip, mac)
    | .lookup _ => none

theorem after_mapStep (ops : List CacheOp) (learnt : List (Ipv4Addr × MacAddr)) :
    Run.after mapStep learnt ops = learnt ++ learns ops := by
  induction ops generalizing learnt with
  | nil => exact (List.append_nil _).symm
  | cons op ops ih =>
    rw [Run.after_cons, ih]
    cases op with
    | learn ip mac => exact List.append_assoc ..
    | lookup ip => rfl

/-- SIMULATION: one call on the cache is one call on the map. -/
theorem cacheStep_sim {s : NetState} {learnt : List (Ipv4Addr × MacAddr)} (op : CacheOp)
    (h : Caches s.arpCache learnt) :
    (cacheStep s op).2 = (mapStep learnt op).2 ∧
      Caches (cacheStep s op).1.arpCache (mapStep learnt op).1 := by
  cases op with
  | learn ip mac => exact ⟨rfl, h.learn ip mac⟩
  | lookup ip =>
    refine ⟨congrArg some (h.lookup ip), ?_⟩
    change Caches (arpLookup s ip).val.2.arpCache learnt
    rwa [(arpLookup_frame s ip).2]

/-- REFINEMENT: after `arp_init`, in every sequence of learns and lookups the lookups return what they
    return on the bounded last-writer-wins map. In the state reached the cached addresses are
    pairwise distinct and as many as were learnt, up to 32; a lookup returns the last address learnt
    for one of the first 32 distinct keys and the broadcast address for any other, and it leaves the
    cache as it is. -/
theorem arp_cache_refines_bounded_map (s : NetState) (ops : List CacheOp) :
    Run.outs cacheStep (arpInit s) ops = Run.outs mapStep [] ops ∧
      ((Run.after cacheStep (arpInit s) ops).arpCache.entries.map ArpCacheEntry.ip).Nodup ∧
      (Run.after cacheStep (arpInit s) ops).arpCache.entries.length =
        min 32 ((learns ops).map Prod.fst).toFinset.card ∧
      ∀ ip : Ipv4Addr,
        (ip ∈ (History.firsts ((learns ops).map Prod.fst)).take 32 →
          History.latest (learns ops) ip =
            some (arpLookup (Run.after cacheStep (arpInit s) ops) ip).val.1) ∧
        (ip ∉ (History.firsts ((learns ops).map Prod.fst)).take 32 →
          (arpLookup (Run.after cacheStep (arpInit s) ops) ip).val.1 = broadcastMac) ∧
        (arpLookup (Run.after cacheStep (arpInit s) ops) ip).val.2.arpCache =
          (Run.after cacheStep (arpInit s) ops).arpCache := by
  obtain ⟨houts, hcaches⟩ := Run.outs_sim
    (R := fun (s : NetState) learnt => Caches s.arpCache learnt) (G := fun _ _ => True)
    (fun s learnt op h _ => cacheStep_sim op h) ops (arpInit s) [] (caches_empty rfl)
    (Run.along_of_forall (fun _ _ => trivial) ops _)
  rw [after_mapStep, List.nil_append] at hcaches
  refine ⟨houts, hcaches.keys ▸ History.nodup_admitted .., ?_, fun ip => ?_⟩
  · rw [← History.length_admitted, ← hcaches.keys, List.length_map]
  rw [← History.admitted]
  refine ⟨fun hip => ?_, fun hip => ?_, (arpLookup_frame _ ip).2⟩
  · obtain ⟨e, he, rfl⟩ := hcaches.mem_admitted.mp hip
    rw [hcaches.latest e he, hcaches.lookup_entry he]
  · rw [hcaches.lookup, History.held, if_neg hip]
    rfl

end VlsOs.Net
