import BuduWaf.Encodings
import BuduWaf.Lib.Decimal
import BuduWaf.Lib.Hex
import BuduWaf.Proxy.Handle
import Mathlib.Data.List.Nodup

/-!
# Request ids

* **`generate`**: the seed of the process and its counter, in hexadecimal. The counter is one
  atomic, so whatever the threads do, the ids of a process come in the order of its `fetch_add`s;
  a run is the list of the calls of `resolve` in that order.
* **`request_ids_stable`**: every id is a short safe token, the next hop keeps it, and the
  generated ids of a run are pairwise distinct until the counter wraps.

Safety is a property of characters and length, and is shown of both kinds of ids: inbound ones were
checked by `sanitize`, and generated ones are 32 hexadecimal digits. Distinctness is the injectivity
of padded numerals, with the seed of the process in front; the counter wraps at `2 ^ 64`, and runs
are compared up to that length.
-/

namespace BuduWaf.Proxy

open BuduWaf.Parser

/-! ## Ids -/

/-- A fresh id, and the counter after it.
Source: `budu-proxy/src/reqid.rs` `generate` -/
def generate (seed counter : UInt64) : Str × UInt64 :=
  (Str.hexPadded 16 seed.toNat ++ Str.hexPadded 16 counter.toNat, counter + 1)

/-- The well-formed id of an inbound request, if it has one.
Source: `budu-proxy/src/reqid.rs` `resolve` (`clean`) -/
def inboundId (headers : HeaderMap) (headerName : Str) : Option Str :=
  if headerName.isEmpty then none
  else ((headers.get headerName).bind headerToStr).bind sanitizeId

/-- The id of a request, and the counter after it.
Source: `budu-proxy/src/reqid.rs` `resolve` -/
def resolve (seed : UInt64) (headers : HeaderMap) (headerName : Str) (counter : UInt64) :
    Str × UInt64 :=
  match inboundId headers headerName with
  | some clean => (clean, counter)
  | none => generate seed counter

/-- The id the handler uses is the resolved one: the client's, if it is accepted, or else a
generated one. -/
theorem resolve_eq (seed : UInt64) (headers : HeaderMap) (headerName : Str) (counter : UInt64) :
    (resolve seed headers headerName counter).1 =
      resolveId headers headerName (generate seed counter).1 := by
  unfold resolve resolveId inboundId
  by_cases hname : headerName.isEmpty
  · simp only [hname, if_true]
  · simp only [hname]
    cases ((headers.get headerName).bind headerToStr).bind sanitizeId <;> rfl

/-! ## Safe tokens -/

/-- The characters an id may have: ASCII letters and digits, and four signs. -/
def idChar (c : Char) : Bool := c.isAlphanum || List.elem c ("-_.:" : Str)

/-- A short, safe token, which can be put into a header and into a log line as it is. -/
structure SafeId (s : Str) : Prop where
  /-- It is not empty. -/
  nonempty : s ≠ []
  /-- It is short. -/
  short : s.length ≤ 128
  /-- Its characters. -/
  safe : ∀ c ∈ s, idChar c = true

/-- A character an id may have is visible ASCII. -/
theorem visible_of_idChar {c : Char} (h : idChar c = true) :
    0x21 ≤ c.toNat ∧ c.toNat ≤ 0x7E := by
  unfold idChar at h
  rcases Bool.or_eq_true_iff.mp h with halnum | hother
  · have hranges : (decide ('A'.val ≤ c.val ∧ c.val ≤ 'Z'.val) ||
        (decide ('a'.val ≤ c.val) && decide (c.val ≤ 'z'.val)) ||
          (decide ('0'.val ≤ c.val) && decide (c.val ≤ '9'.val))) = true := halnum
    simp only [Bool.or_eq_true, Bool.and_eq_true, decide_eq_true_eq,
      UInt32.le_iff_toNat_le] at hranges
    have hvalue : c.toNat = c.val.toNat := rfl
    rcases hranges with (⟨hlow, hhigh⟩ | ⟨hlow, hhigh⟩) | ⟨hlow, hhigh⟩
    · simp at hlow hhigh; omega
    · simp at hlow hhigh; omega
    · simp at hlow hhigh; omega
  · have hall : (("-_.:" : Str).all fun d => decide (0x21 ≤ d.toNat ∧ d.toNat ≤ 0x7E)) = true := by
      decide
    exact of_decide_eq_true (List.all_eq_true.mp hall c (List.mem_of_elem_eq_true hother))

/-- A text of characters an id may have has as many bytes as characters. -/
theorem byteLen_of_safe {s : Str} (h : ∀ c ∈ s, idChar c = true) :
    Str.byteLen s = s.length := by
  have hascii : ∀ c ∈ s, c.toNat < 0x80 := by
    intro c hc
    have hvisible := visible_of_idChar (h c hc)
    omega
  rw [Str.byteLen, utf8_of_ascii hascii, List.length_map]

/-- What `sanitize` lets through is a short, safe token. -/
theorem safeId_of_sanitizeId {s id : Str} (h : sanitizeId s = some id) : SafeId id := by
  unfold sanitizeId at h
  dsimp only at h
  split at h
  · cases h
  · rename_i hlen
    split at h
    · rename_i hsafe
      obtain rfl := Option.some.inj h
      simp only [Bool.or_eq_true, not_or, List.isEmpty_iff, decide_eq_true_eq] at hlen
      have hall : ∀ c ∈ Str.trim s, idChar c = true := List.all_eq_true.mp hsafe
      refine ⟨hlen.1, ?_, hall⟩
      rw [← byteLen_of_safe hall]
      omega
    · cases h

/-- **`sanitize` keeps a safe token** as it is. -/
theorem SafeId.sanitize {id : Str} (h : SafeId id) : sanitizeId id = some id := by
  have htrim : Str.trim id = id := by
    apply Str.trim_of_forall
    intro c hc
    exact Str.isWhitespace_of_visible (visible_of_idChar (h.safe c hc))
  have hnonempty : id.isEmpty = false := by
    rw [List.isEmpty_eq_false_iff]
    exact h.nonempty
  have hshort : ¬ 128 < Str.byteLen id := by
    rw [byteLen_of_safe h.safe]
    exact Nat.not_lt.mpr h.short
  have hsafe : (id.all fun c => c.isAlphanum || List.elem c ("-_.:" : Str)) = true :=
    List.all_eq_true.mpr h.safe
  simp only [sanitizeId, htrim, hnonempty, hshort, decide_false, Bool.or_false, if_false,
    Bool.false_eq_true, hsafe, if_true]

/-- A safe token reads as itself from a header. -/
theorem SafeId.headerToStr {id : Str} (h : SafeId id) : headerToStr (Str.utf8 id) = some id := by
  apply headerToStr_utf8
  intro c hc
  have hvisible := visible_of_idChar (h.safe c hc)
  simp only [isHeaderChar, Bool.or_eq_true, Bool.and_eq_true, decide_eq_true_eq]
  omega

/-! ## Generated ids -/

section generated

variable (seed counter : UInt64)

/-- The digits of a `u64` are padded to 16. -/
theorem length_hex (n : UInt64) : (Str.hexPadded 16 n.toNat).length = 16 := by
  apply Str.length_hexPadded (by decide)
  have hwidth : (16 : Nat) ^ 16 = 2 ^ 64 := by decide
  rw [hwidth]
  exact n.toNat_lt

/-- A generated id has 32 characters: two numbers of 16 digits. -/
theorem length_generate : (generate seed counter).1.length = 32 := by
  unfold generate
  rw [List.length_append, length_hex, length_hex]

/-- Generated ids are safe tokens. -/
theorem safeId_generate : SafeId (generate seed counter).1 := by
  have hlength := length_generate seed counter
  refine ⟨?_, by omega, ?_⟩
  · intro hnil
    rw [hnil] at hlength
    cases hlength
  · intro c hc
    have halnum : c.isAlphanum = true := by
      rcases List.mem_append.mp hc with hseed | hcounter
      · exact Str.isAlphanum_of_mem_hexPadded hseed
      · exact Str.isAlphanum_of_mem_hexPadded hcounter
    rw [idChar, halnum, Bool.true_or]

/-- Ids of one process differ where the counter does. -/
theorem generate_injective {counter counter' : UInt64}
    (h : (generate seed counter).1 = (generate seed counter').1) : counter = counter' := by
  have hcounter := List.append_cancel_left h
  exact UInt64.toNat_inj.mp (Str.hexPadded_injective 16 hcounter)

/-- The id of a request is a safe token, whatever the client sent. -/
theorem safeId_resolve (headers : HeaderMap) (headerName : Str) :
    SafeId (resolve seed headers headerName counter).1 := by
  unfold resolve
  cases hinbound : inboundId headers headerName with
  | none => exact safeId_generate seed counter
  | some clean =>
      unfold inboundId at hinbound
      split at hinbound
      · cases hinbound
      · obtain ⟨text, -, hclean⟩ := Option.bind_eq_some_iff.mp hinbound
        exact safeId_of_sanitizeId hclean

end generated

/-- The next hop keeps a safe id that its header carries. -/
theorem SafeId.resolve_eq {id headerName : Str} (h : SafeId id) (hname : headerName ≠ [])
    {headers : HeaderMap} (hcarried : headers.get headerName = some (Str.utf8 id))
    (seed counter : UInt64) : (resolve seed headers headerName counter).1 = id := by
  have hinbound : inboundId headers headerName = some id := by
    unfold inboundId
    rw [if_neg (by simpa using hname), hcarried, Option.bind_some, h.headerToStr, Option.bind_some,
      h.sanitize]
  unfold resolve
  rw [hinbound]

/-! ## Runs -/

/-- A run of calls of `resolve` in one process, from a state of the counter on: each id, and
whether it was generated. -/
def resolveRun (seed : UInt64) : UInt64 → List (HeaderMap × Str) → List (Str × Bool)
  | _, [] => []
  | counter, (headers, headerName) :: calls =>
    let r := resolve seed headers headerName counter
    (r.1, (inboundId headers headerName).isNone) :: resolveRun seed r.2 calls

/-- The ids of a run that were generated, in their order. -/
def generatedIds (run : List (Str × Bool)) : List Str := (run.filter Prod.snd).map Prod.fst

/-- The generated ids of a run are those of consecutive counters. -/
theorem generatedIds_resolveRun (seed counter : UInt64) (calls : List (HeaderMap × Str)) :
    generatedIds (resolveRun seed counter calls) =
      (List.range (generatedIds (resolveRun seed counter calls)).length).map fun i =>
        (generate seed (counter + UInt64.ofNat i)).1 := by
  induction calls generalizing counter with
  | nil => rfl
  | cons call calls ih =>
      obtain ⟨headers, headerName⟩ := call
      cases hinbound : inboundId headers headerName with
      | some clean =>
          have hstep : generatedIds (resolveRun seed counter ((headers, headerName) :: calls)) =
              generatedIds (resolveRun seed counter calls) := by
            simp [resolveRun, resolve, hinbound, generatedIds]
          rw [hstep]
          exact ih counter
      | none =>
          have hstep : generatedIds (resolveRun seed counter ((headers, headerName) :: calls)) =
              (generate seed counter).1 ::
                generatedIds (resolveRun seed (counter + 1) calls) := by
            simp [resolveRun, resolve, hinbound, generatedIds, generate]
          have hrest := ih (counter + 1)
          rw [hstep, List.length_cons, List.range_succ_eq_map, List.map_cons, List.map_map]
          have hfirst : counter + UInt64.ofNat 0 = counter := UInt64.add_zero counter
          have hshift : ((fun i => (generate seed (counter + UInt64.ofNat i)).1) ∘ Nat.succ) =
              fun i => (generate seed (counter + 1 + UInt64.ofNat i)).1 := by
            funext i
            have hsucc : counter + UInt64.ofNat (i + 1) = counter + 1 + UInt64.ofNat i := by
              rw [UInt64.ofNat_add, UInt64.add_assoc, UInt64.add_comm (UInt64.ofNat i)]
              rfl
            exact congrArg (fun n => (generate seed n).1) hsucc
          rw [hfirst, hshift, ← hrest]

/-- **Request ids are safe and stable.** Every resolved id is a short safe token that `sanitize`
keeps and the next hop takes over, and the generated ids of a run of fewer than `2^64` of them
are pairwise distinct. -/
theorem request_ids_stable :
    (∀ (seed counter : UInt64) (headers : HeaderMap) (headerName : Str),
      SafeId (resolve seed headers headerName counter).1 ∧
      sanitizeId (resolve seed headers headerName counter).1 =
        some (resolve seed headers headerName counter).1 ∧
      ∀ (seed' counter' : UInt64) (headers' : HeaderMap) (headerName' : Str), headerName' ≠ [] →
        headers'.get headerName' =
          some (Str.utf8 (resolve seed headers headerName counter).1) →
        (resolve seed' headers' headerName' counter').1 =
          (resolve seed headers headerName counter).1) ∧
    ∀ (seed counter : UInt64) (calls : List (HeaderMap × Str)),
      (generatedIds (resolveRun seed counter calls)).length < 2 ^ 64 →
        (generatedIds (resolveRun seed counter calls)).Nodup := by
  constructor
  · intro seed counter headers headerName
    have hsafe := safeId_resolve seed counter headers headerName
    refine ⟨hsafe, hsafe.sanitize, ?_⟩
    intro seed' counter' headers' headerName' hname hcarried
    exact hsafe.resolve_eq hname hcarried seed' counter'
  · intro seed counter calls hlength
    rw [generatedIds_resolveRun]
    refine List.Nodup.map_on ?_ List.nodup_range
    intro i hi j hj heq
    have hcounters := UInt64.add_right_inj counter |>.mp (generate_injective seed heq)
    have hi' : i < 2 ^ 64 := Nat.lt_trans (List.mem_range.mp hi) hlength
    have hj' : j < 2 ^ 64 := Nat.lt_trans (List.mem_range.mp hj) hlength
    have hnat := congrArg UInt64.toNat hcounters
    rwa [UInt64.toNat_ofNat_of_lt' hi', UInt64.toNat_ofNat_of_lt' hj'] at hnat

/-- Headers with an id that the edge has set, and a blank in front of it. -/
def edgeHeaders : HeaderMap := ⟨[("x-request-id", Str.utf8 " edge-abc123")]⟩

/-- The headers that the next hop gets: the id is trimmed. -/
def nextHeaders : HeaderMap := ⟨[("x-request-id", Str.utf8 "edge-abc123")]⟩

/-- The next hop keeps an id from the edge, and two requests without one get different ids, in
whatever order they come. -/
theorem edge_id_kept :
    (resolve 9 nextHeaders "X-Request-Id" 4).1 = (resolve 7 edgeHeaders "X-Request-Id" 0).1 ∧
      (generatedIds (resolveRun 7 0 [(.empty, "X-Request-Id"), (edgeHeaders, "X-Request-Id"),
        (edgeHeaders, [])])).Nodup :=
  ⟨(request_ids_stable.1 7 0 edgeHeaders "X-Request-Id").2.2 9 4 nextHeaders "X-Request-Id"
      (by decide) (by decide +kernel),
    request_ids_stable.2 7 0 _ (by decide +kernel)⟩

end BuduWaf.Proxy
