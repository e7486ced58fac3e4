import RustUtp.Engine.Incoming

/-! # The extension walk accepts exactly its grammar

    After the header comes a chain of elements, each `next`, `len` and `len`
    bytes: `next` is the type of the following element, the type of the first
    stands in the header, and a zero ends the chain.  The walk of
    `process_incoming` is shown sound and complete for this grammar, element by
    element, and to read inside the buffer only. -/

namespace UtpExtensionWalk

open UtpPacket UtpUtil UtpEngine

/-- One element of a chain; its length is one byte on the wire. -/
structure ExtElement where
  /-- the type of the element that follows, 0 at the end -/
  next : UInt8
  body : Bytes
  short : body.length < 256

namespace ExtElement

def encode (e : ExtElement) : Bytes := e.next :: UInt8.ofNat e.body.length :: e.body

def size (e : ExtElement) : Nat := 2 + e.body.length

/-- An element takes two bytes more than its body. -/
theorem length_encode (e : ExtElement) : e.encode.length = e.size := by
  unfold encode size
  rw [List.length_cons, List.length_cons]
  omega

end ExtElement

def encodeChain (els : List ExtElement) : Bytes := els.flatMap ExtElement.encode

def chainSize (els : List ExtElement) : Nat := (els.map ExtElement.size).sum

/-- The grammar: a chain whose first element has type `t`. -/
inductive Chain : UInt8 → List ExtElement → Prop where
  | last {t : UInt8} {e : ExtElement} (hbits : t = 2 → e.body.length = 8) (hend : e.next = 0) :
      Chain t [e]
  | cons {t : UInt8} {e : ExtElement} {rest : List ExtElement}
      (hbits : t = 2 → e.body.length = 8) (hnext : e.next ≠ 0) (hrest : Chain e.next rest) :
      Chain t (e :: rest)

/-- Offsets and lengths of the selective acks in a chain that starts at
    `start` with type `t`. -/
def selacks : UInt8 → Nat → List ExtElement → List (Nat × Nat)
  | _, _, [] => []
  | t, start, e :: rest =>
      (if t = 1 then [(start + 2, e.body.length)] else [])
        ++ selacks e.next (start + e.size) rest

/-- The masks of a chain, element by element. -/
theorem selacks_cons (t : UInt8) (start : Nat) (e : ExtElement) (rest : List ExtElement) :
    selacks t start (e :: rest)
      = (if t = 1 then [(start + 2, e.body.length)] else [])
        ++ selacks e.next (start + e.size) rest := rfl

/-- The length of an encoded chain. -/
theorem length_encodeChain (els : List ExtElement) : (encodeChain els).length = chainSize els := by
  induction els with
  | nil => rfl
  | cons e rest ih =>
      show (e.encode ++ encodeChain rest).length = e.size + chainSize rest
      rw [List.length_append, e.length_encode, ih]

/-- Every element takes two bytes at least; this bounds the rounds of the walk.
    -/
theorem two_mul_length_le (els : List ExtElement) : 2 * els.length ≤ chainSize els := by
  induction els with
  | nil => exact Nat.le_refl 0
  | cons e rest ih =>
      show 2 * (rest.length + 1) ≤ (2 + e.body.length) + chainSize rest
      omega

/-! ## One element in a buffer -/

/-- The two bytes at the start of an element. -/
theorem drop_two {buf : Bytes} {start : Nat} (h : start + 2 ≤ buf.length) :
    buf.drop start = byteAt buf start :: byteAt buf (start + 1) :: buf.drop (start + 2) := by
  have hbyte : ∀ i, i < buf.length → buf.drop i = byteAt buf i :: buf.drop (i + 1) := by
    intro i hi
    unfold byteAt
    rw [List.getD_eq_getElem _ _ hi, List.drop_eq_getElem_cons hi]
  rw [hbyte start (by omega), hbyte (start + 1) (by omega)]

/-- The element that the walk finds at `start`. -/
def elementAt (buf : Bytes) (start : Nat) : ExtElement where
  next := byteAt buf start
  body := (buf.drop (start + 2)).take (byteAt buf (start + 1)).toNat
  short := Nat.lt_of_le_of_lt (List.length_take_le _ _) (UInt8.toNat_lt _)

/-- The body of an element is as long as its length byte says. -/
theorem length_elementAt {buf : Bytes} {start : Nat}
    (h : start + 2 + (byteAt buf (start + 1)).toNat ≤ buf.length) :
    (elementAt buf start).body.length = (byteAt buf (start + 1)).toNat := by
  show ((buf.drop (start + 2)).take _).length = _
  rw [List.length_take, List.length_drop]
  omega

/-- An element that fits is what the buffer holds at its place. -/
theorem drop_elementAt {buf : Bytes} {start : Nat}
    (h : start + 2 + (byteAt buf (start + 1)).toNat ≤ buf.length) :
    buf.drop start
      = (elementAt buf start).encode ++ buf.drop (start + (elementAt buf start).size) := by
  have hlen := length_elementAt h
  have hsplit : buf.drop (start + 2)
      = (elementAt buf start).body ++ buf.drop (start + (elementAt buf start).size) := by
    have hrest : buf.drop (start + (elementAt buf start).size)
        = (buf.drop (start + 2)).drop (byteAt buf (start + 1)).toNat := by
      rw [List.drop_drop]
      unfold ExtElement.size
      rw [hlen, ← Nat.add_assoc]
    rw [hrest]
    exact (List.take_append_drop _ _).symm
  rw [drop_two (by omega), hsplit]
  unfold ExtElement.encode
  rw [hlen, UInt8.ofNat_toNat]
  rfl

/-- Conversely, an encoded element in the buffer is the one the walk finds
    there. -/
theorem elementAt_of_drop {buf rest : Bytes} {start : Nat} {e : ExtElement}
    (h : buf.drop start = e.encode ++ rest) :
    start + e.size ≤ buf.length ∧ byteAt buf start = e.next
      ∧ (byteAt buf (start + 1)).toNat = e.body.length
      ∧ buf.drop (start + e.size) = rest := by
  have hlen : buf.length - start = e.size + rest.length := by
    rw [← List.length_drop, h, List.length_append, e.length_encode]
  have hsize : e.size = 2 + e.body.length := rfl
  have htwo := @drop_two buf start (by omega)
  rw [h] at htwo
  obtain ⟨hnext, htail⟩ := List.cons.inj htwo
  obtain ⟨hbyte, -⟩ := List.cons.inj htail
  refine ⟨by omega, hnext.symm, ?_, ?_⟩
  · rw [← hbyte, UInt8.toNat_ofNat']
    exact Nat.mod_eq_of_lt e.short
  · rw [← List.drop_drop, h, ← e.length_encode, List.drop_left]

/-! ## One round of the walk -/

/-- A round either fails, or finds an element that fits and may be there, and
    ends or goes on behind it. -/
theorem extLoop_round (buf : Bytes) (fuel start : Nat) (t : UInt8) (sel : Option (Nat × Nat))
    (exts : Bytes) :
    (extLoop buf (fuel + 1) start t sel exts).2
      = if start + 2 + (byteAt buf (start + 1)).toNat ≤ buf.length
            ∧ (t = 2 → (byteAt buf (start + 1)).toNat = 8) then
          let sel' := if t = 1 then some (start + 2, (byteAt buf (start + 1)).toNat) else sel
          let exts' := if t = 2 then (buf.drop (start + 2)).take 8 else exts
          if byteAt buf start = 0 then
            some ⟨start + 2 + (byteAt buf (start + 1)).toNat, sel'⟩
          else
            (extLoop buf fuel (start + 2 + (byteAt buf (start + 1)).toNat) (byteAt buf start) sel'
              exts').2
        else none := by
  -- the loop reads the type and the length just before the body
  have hlen : start + 2 - 1 = start + 1 := by omega
  have hnext : start + 2 - 2 = start := by omega
  rw [extLoop]
  dsimp only
  rw [hlen, hnext]
  -- the body fits, and a body of type 2 has eight bytes
  by_cases hfits : start + 2 + (byteAt buf (start + 1)).toNat ≤ buf.length
  · rw [if_neg (by omega), if_neg (by omega)]
    by_cases hbits : t = 2 → (byteAt buf (start + 1)).toNat = 8
    · have hok : ¬ (t = 2 ∧ (byteAt buf (start + 1)).toNat ≠ 8) := fun h => h.2 (hbits h.1)
      have hround : start + 2 + (byteAt buf (start + 1)).toNat ≤ buf.length
          ∧ (t = 2 → (byteAt buf (start + 1)).toNat = 8) := ⟨hfits, hbits⟩
      rw [if_neg hok, if_pos hround]
      by_cases hend : byteAt buf start = 0
      · rw [if_pos hend, if_pos hend]
      · rw [if_neg hend, if_neg hend]
    · have hbad : t = 2 ∧ (byteAt buf (start + 1)).toNat ≠ 8 := by
        rwa [← Classical.not_imp]
      rw [if_pos hbad, if_neg (fun h => hbits h.2)]
  · -- it does not fit, in one of two tests
    rw [if_neg (fun h : _ ∧ _ => hfits h.1)]
    split
    · rfl
    · rw [if_pos (by omega)]

/-! ## Soundness and completeness -/

/-- **SOUNDNESS**: a walk that ends well has walked a chain. -/
theorem extLoop_sound (buf : Bytes) (fuel : Nat) :
    ∀ (start : Nat) (t : UInt8) (sel : Option (Nat × Nat)) (exts : Bytes) (w : ExtWalk),
      (extLoop buf fuel start t sel exts).2 = some w →
      ∃ els, Chain t els ∧ encodeChain els <+: buf.drop start := by
  induction fuel with
  | zero => intro start t sel exts w h; exact nomatch h
  | succ fuel ih =>
      intro start t sel exts w h
      rw [extLoop_round] at h
      split at h
      next hround =>
        obtain ⟨hfits, hbits⟩ := hround
        have hlen := length_elementAt hfits
        have hdrop := drop_elementAt hfits
        have hsize : start + 2 + (byteAt buf (start + 1)).toNat
            = start + (elementAt buf start).size := by
          unfold ExtElement.size
          rw [hlen, ← Nat.add_assoc]
        have hbits' : t = 2 → (elementAt buf start).body.length = 8 := by
          rw [hlen]
          exact hbits
        dsimp only at h
        split at h
        -- the last element
        next hend =>
          refine ⟨[elementAt buf start], .last hbits' hend,
            buf.drop (start + (elementAt buf start).size), ?_⟩
          show (elementAt buf start).encode ++ [] ++ _ = _
          rw [List.append_nil]
          exact hdrop.symm
        -- one element more, and the chain behind it
        next hnext =>
          obtain ⟨els, hchain, tail, htail⟩ := ih _ _ _ _ w h
          rw [hsize] at htail
          refine ⟨elementAt buf start :: els, .cons hbits' hnext hchain, tail, ?_⟩
          show ((elementAt buf start).encode ++ encodeChain els) ++ tail = _
          rw [List.append_assoc, htail]
          exact hdrop.symm
      next => exact nomatch h

/-- **COMPLETENESS**: a chain in the buffer is walked to its end, and its last
    selective ack is the one reported. -/
theorem extLoop_complete (buf : Bytes) {t : UInt8} {els : List ExtElement} (hchain : Chain t els) :
    ∀ (fuel start : Nat) (sel : Option (Nat × Nat)) (exts : Bytes), els.length ≤ fuel →
      encodeChain els <+: buf.drop start →
      (extLoop buf fuel start t sel exts).2
        = some ⟨start + chainSize els, (selacks t start els).getLast?.or sel⟩ := by
  -- what the head of the chain makes the loop read
  have hhead : ∀ {t : UInt8} {e : ExtElement} {rest : Bytes} {start : Nat},
      (t = 2 → e.body.length = 8) → buf.drop start = e.encode ++ rest →
      start + 2 + (byteAt buf (start + 1)).toNat = start + e.size
        ∧ (byteAt buf (start + 1)).toNat = e.body.length ∧ byteAt buf start = e.next
        ∧ buf.drop (start + e.size) = rest
        ∧ (start + 2 + (byteAt buf (start + 1)).toNat ≤ buf.length
          ∧ (t = 2 → (byteAt buf (start + 1)).toNat = 8)) := by
    intro t e rest start hbits hdrop
    obtain ⟨hfits, hnext, hlen, hrest⟩ := elementAt_of_drop hdrop
    have hsize : start + 2 + (byteAt buf (start + 1)).toNat = start + e.size := by
      unfold ExtElement.size
      rw [hlen, ← Nat.add_assoc]
    refine ⟨hsize, hlen, hnext, hrest, by omega, fun ht => ?_⟩
    rw [hlen]
    exact hbits ht
  induction hchain with
  | @last t e hbits hend =>
      intro fuel start sel exts hfuel ⟨tail, htail⟩
      obtain ⟨fuel, rfl⟩ : ∃ n, fuel = n + 1 := ⟨fuel - 1, (Nat.sub_add_cancel hfuel).symm⟩
      have hdrop : buf.drop start = e.encode ++ tail := by
        rw [← htail]
        show e.encode ++ [] ++ tail = _
        rw [List.append_nil]
      obtain ⟨hsize, hlen, hnext, -, hround⟩ := hhead hbits hdrop
      rw [extLoop_round, if_pos hround]
      dsimp only
      rw [hnext, hend, if_pos rfl, hsize, hlen]
      rw [selacks_cons]
      unfold selacks chainSize
      rw [List.append_nil, List.map_cons, List.map_nil, List.sum_singleton]
      split <;> rfl
  | @cons t e rest hbits hnext hrest ih =>
      intro fuel start sel exts hfuel ⟨tail, htail⟩
      rw [List.length_cons] at hfuel
      obtain ⟨fuel, rfl⟩ : ∃ n, fuel = n + 1 := ⟨fuel - 1, by omega⟩
      have hdrop : buf.drop start = e.encode ++ (encodeChain rest ++ tail) := by
        rw [← htail, ← List.append_assoc]
        rfl
      obtain ⟨hsize, hlen, hbyte, hafter, hround⟩ := hhead hbits hdrop
      have htail' : encodeChain rest <+: buf.drop (start + e.size) := ⟨tail, hafter.symm⟩
      rw [extLoop_round, if_pos hround]
      dsimp only
      rw [hbyte, if_neg hnext, hsize, hlen, ih fuel _ _ _ (by omega) htail']
      have hsum : start + e.size + chainSize rest = start + chainSize (e :: rest) := by
        unfold chainSize
        rw [List.map_cons, List.sum_cons, Nat.add_assoc]
      -- a later mask replaces an earlier one
      rw [hsum, selacks_cons, List.getLast?_append, Option.or_assoc]
      split <;> rfl

/-! ## Every read is inside the buffer -/

/-- `buf[i]`; `none` stands for the panic of an index outside the buffer. -/
def indexed (buf : Bytes) (i : Nat) : Option UInt8 := buf[i]?

/-- `&buf[i..i + n]`, with the same panic. -/
def sliced (buf : Bytes) (i n : Nat) : Option Bytes :=
  if i + n ≤ buf.length then some ((buf.drop i).take n) else none

/-- The walk with every index checked; rounds that run out are a failure of
    their own, not a rejection. -/
def extLoopIndexed (buf : Bytes) :
    Nat → Nat → UInt8 → Option (Nat × Nat) → Bytes → Option (Bytes × Option ExtWalk)
  | 0, _, _, _, _ => none
  | fuel + 1, start, extension, selack, exts =>
      let dataStart := start + 2
      if dataStart > buf.length then some (exts, none)
      else
        (indexed buf (dataStart - 1)).bind fun lenByte =>
          let elen := lenByte.toNat
          if buf.length - dataStart < elen then some (exts, none)
          else if extension = 2 ∧ elen ≠ 8 then some (exts, none)
          else
            let selack := if extension = 1 then some (dataStart, elen) else selack
            (if extension = 2 then sliced buf dataStart 8 else some exts).bind fun exts =>
              (indexed buf (dataStart - 2)).bind fun next =>
                if next = 0 then some (exts, some ⟨dataStart + elen, selack⟩)
                else extLoopIndexed buf fuel (dataStart + elen) next selack exts

/-- Reading inside the buffer succeeds. -/
theorem indexed_eq {buf : Bytes} {i : Nat} (h : i < buf.length) :
    indexed buf i = some (byteAt buf i) := by
  unfold indexed byteAt
  rw [List.getElem?_eq_getElem h, List.getD_eq_getElem _ _ h]

/-- **NO READ OUTSIDE, AND AN END**: with checked indices and enough rounds the
    walk comes to the same end. -/
theorem extLoopIndexed_eq (buf : Bytes) (fuel : Nat) :
    ∀ (start : Nat) (t : UInt8) (sel : Option (Nat × Nat)) (exts : Bytes),
      start ≤ buf.length → buf.length < start + 2 * fuel →
      extLoopIndexed buf fuel start t sel exts = some (extLoop buf fuel start t sel exts) := by
  induction fuel with
  | zero => intro start t sel exts hstart hfuel; omega
  | succ fuel ih =>
      intro start t sel exts hstart hfuel
      rw [extLoopIndexed, extLoop]
      dsimp only
      by_cases hroom : start + 2 > buf.length
      · rw [if_pos hroom, if_pos hroom]
      · -- two bytes are there to read
        rw [if_neg hroom, if_neg hroom, indexed_eq (by omega), Option.bind_some]
        by_cases hlong : buf.length - (start + 2) < (byteAt buf (start + 2 - 1)).toNat
        · rw [if_pos hlong, if_pos hlong]
        · rw [if_neg hlong, if_neg hlong]
          by_cases hbits : t = 2 ∧ (byteAt buf (start + 2 - 1)).toNat ≠ 8
          · rw [if_pos hbits, if_pos hbits]
          · rw [if_neg hbits, if_neg hbits]
            -- the eight bytes lie in the buffer
            have hslice : (if t = 2 then sliced buf (start + 2) 8 else some exts)
                = some (if t = 2 then (buf.drop (start + 2)).take 8 else exts) := by
              by_cases ht : t = 2
              · have height : (byteAt buf (start + 2 - 1)).toNat = 8 :=
                  Classical.not_not.mp (fun h => hbits ⟨ht, h⟩)
                rw [if_pos ht, if_pos ht]
                unfold sliced
                rw [if_pos (by omega)]
              · rw [if_neg ht, if_neg ht]
            rw [hslice, Option.bind_some, indexed_eq (by omega), Option.bind_some]
            by_cases hend : byteAt buf (start + 2 - 2) = 0
            · rw [if_pos hend, if_pos hend]
            · rw [if_neg hend, if_neg hend]
              exact ih _ _ _ _ (by omega) (by omega)

/-! ## The walk ends -/

/-- **TERMINATION**: every round takes two bytes, so more rounds than that change
    nothing. -/
theorem extLoop_fuel (buf : Bytes) (fuel : Nat) :
    ∀ (fuel' start : Nat) (t : UInt8) (sel : Option (Nat × Nat)) (exts : Bytes),
      buf.length < start + 2 * fuel → buf.length < start + 2 * fuel' →
      extLoop buf fuel start t sel exts = extLoop buf fuel' start t sel exts := by
  -- past the end nothing is read, whatever the fuel
  have hpast : ∀ (fuel start : Nat) (t : UInt8) (sel : Option (Nat × Nat)) (exts : Bytes),
      buf.length < start + 2 → extLoop buf fuel start t sel exts = (exts, none) := by
    intro fuel start t sel exts h
    cases fuel with
    | zero => rfl
    | succ fuel =>
        rw [extLoop]
        dsimp only
        rw [if_pos (by omega)]
  induction fuel with
  | zero =>
      intro fuel' start t sel exts h _
      rw [hpast fuel' start t sel exts (by omega)]
      rfl
  | succ fuel ih =>
      intro fuel' start t sel exts h h'
      cases fuel' with
      | zero => rw [hpast (fuel + 1) start t sel exts (by omega), hpast 0 start t sel exts (by omega)]
      | succ fuel' =>
          rw [extLoop, extLoop]
          dsimp only
          rw [ih fuel' (start + 2 + (byteAt buf (start + 2 - 1)).toNat) _ _ _ (by omega) (by omega)]

/-! ## The result -/

/-- The masks that are found lie inside the chain. -/
theorem selacks_inside (els : List ExtElement) :
    ∀ (t : UInt8) (start : Nat), ∀ sel ∈ selacks t start els,
      sel.1 + sel.2 ≤ start + chainSize els := by
  induction els with
  | nil => intro t start sel hsel; exact nomatch hsel
  | cons e rest ih =>
      intro t start sel hsel
      have hsum : chainSize (e :: rest) = (2 + e.body.length) + chainSize rest := rfl
      have hsize : e.size = 2 + e.body.length := rfl
      rw [selacks_cons] at hsel
      rcases List.mem_append.mp hsel with hsel | hsel
      · split at hsel
        · obtain rfl := List.mem_singleton.mp hsel
          show start + 2 + e.body.length ≤ _
          omega
        · exact nomatch hsel
      · have := ih e.next (start + e.size) sel hsel
        omega

/-- The walk of a whole datagram, with every index checked. -/
def skipExtensionsIndexed (buf exts : Bytes) : Option (Bytes × Option ExtWalk) :=
  (indexed buf 1).bind fun extension =>
    if extension = 0 then some (exts, some ⟨headerSize, none⟩)
    else extLoopIndexed buf buf.length headerSize extension none exts

/-- **THE WALK ACCEPTS EXACTLY ITS GRAMMAR**: behind a whole header it passes if
    and only if no extension is announced or the bytes start with a chain of the
    announced type.  It then ends behind the chain, inside the buffer, with the
    last selective ack; it never reads outside the buffer, it ends by itself, and
    no number of further rounds changes where. -/
theorem walk_accepts_grammar {buf : Bytes} (hlen : headerSize ≤ buf.length) (exts : Bytes) :
    ((skipExtensions buf exts).2.isSome = true
        ↔ ext buf = 0
          ∨ ∃ els, Chain (ext buf) els ∧ encodeChain els <+: buf.drop headerSize)
      ∧ (ext buf = 0 → (skipExtensions buf exts).2 = some ⟨headerSize, none⟩)
      ∧ (∀ els, ext buf ≠ 0 → Chain (ext buf) els → encodeChain els <+: buf.drop headerSize →
          (skipExtensions buf exts).2
              = some ⟨headerSize + chainSize els, (selacks (ext buf) headerSize els).getLast?⟩
            ∧ headerSize + chainSize els ≤ buf.length
            ∧ ∀ sel ∈ selacks (ext buf) headerSize els, sel.1 + sel.2 ≤ buf.length)
      ∧ skipExtensionsIndexed buf exts = some (skipExtensions buf exts)
      ∧ ∀ fuel, buf.length < headerSize + 2 * fuel →
          extLoop buf fuel headerSize (ext buf) none exts
            = extLoop buf buf.length headerSize (ext buf) none exts := by
  have hheader : headerSize = 20 := rfl
  have hwalk : ext buf ≠ 0 → skipExtensions buf exts
      = extLoop buf buf.length headerSize (ext buf) none exts := fun h => if_neg h
  have hplain : ext buf = 0 → (skipExtensions buf exts).2 = some ⟨headerSize, none⟩ := by
    intro h
    unfold skipExtensions
    rw [if_pos h]
  have hfit : ∀ els, encodeChain els <+: buf.drop headerSize →
      headerSize + chainSize els ≤ buf.length := by
    intro els hpre
    have hle := hpre.length_le
    rw [length_encodeChain, List.length_drop] at hle
    omega
  -- the chain is no longer than the buffer, so the fuel is enough
  have hcomplete : ∀ els, ext buf ≠ 0 → Chain (ext buf) els →
      encodeChain els <+: buf.drop headerSize → (skipExtensions buf exts).2
        = some ⟨headerSize + chainSize els, (selacks (ext buf) headerSize els).getLast?⟩ := by
    intro els hne hchain hpre
    have hrounds := two_mul_length_le els
    have hroom := hfit els hpre
    rw [hwalk hne, extLoop_complete buf hchain buf.length headerSize none exts (by omega) hpre,
      Option.or_none]
  refine ⟨⟨fun h => ?_, ?_⟩, hplain, fun els hne hchain hpre => ?_, ?_, fun fuel hfuel => ?_⟩
  · by_cases hzero : ext buf = 0
    · exact .inl hzero
    · obtain ⟨w, hw⟩ := Option.isSome_iff_exists.mp h
      rw [hwalk hzero] at hw
      exact .inr (extLoop_sound buf _ _ _ _ _ w hw)
  · rintro (hzero | ⟨els, hchain, hpre⟩)
    · rw [hplain hzero]
      rfl
    · by_cases hzero : ext buf = 0
      · rw [hplain hzero]
        rfl
      · rw [hcomplete els hzero hchain hpre]
        rfl
  · have hroom := hfit els hpre
    refine ⟨hcomplete els hne hchain hpre, hroom, fun sel hsel => ?_⟩
    exact Nat.le_trans (selacks_inside els _ _ sel hsel) hroom
  · unfold skipExtensionsIndexed
    rw [indexed_eq (by omega), Option.bind_some]
    show (if ext buf = 0 then _ else _) = _
    unfold skipExtensions
    split
    · rfl
    · exact extLoopIndexed_eq buf _ _ _ _ _ hlen (by omega)
  · exact extLoop_fuel buf fuel buf.length headerSize (ext buf) none exts hfuel (by omega)

/-- A chain of an unknown element and a selective ack of four bytes that ends
    with the buffer. -/
def chainedPacket : Bytes :=
  [0x21, 5] ++ List.replicate 18 0 ++ [1, 1, 9] ++ [0, 4, 1, 2, 3, 4]

/-- The walk of that packet stops at its end with the mask. -/
theorem walk_accepts_grammar_chained :
    (skipExtensions chainedPacket []).2 = some ⟨29, some (25, 4)⟩ := by
  have hchain : Chain (ext chainedPacket) [⟨1, [9], by decide⟩, ⟨0, [1, 2, 3, 4], by decide⟩] :=
    .cons (fun h => absurd h (by decide)) (by decide)
      (.last (fun h => absurd h (by decide)) rfl)
  have hlen : headerSize ≤ chainedPacket.length := by decide
  have hne : ext chainedPacket ≠ 0 := by decide
  exact ((walk_accepts_grammar hlen []).2.2.1 _ hne hchain ⟨[], by decide⟩).1

end UtpExtensionWalk
