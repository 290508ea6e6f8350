import PiHub.PyBytes
import PiHub.PyStr

/-! The Audio Pro's packets (audiopro_speaker.py): what `_mk_packet` frames and `_read_loop`
takes out of the TCP stream again, read by read. -/
namespace PiHub.PacketStream
open PiHub.PyBytes PiHub.PyStr

def tcpHeader : List UInt8 := [0x18, 0x96, 0x18, 0x20]

/-- `_mk_packet`; `struct.pack` takes a length below 2^32. -/
def mkPacket (payloadText : String) : List UInt8 :=
  let pb := encode payloadText
  tcpHeader ++ packLe32 pb.length ++ packLe32 (pb.foldl (fun n b => n + b.toNat) 0 % 0x100000000) ++
    List.replicate 8 0 ++ pb

def parsePayload (payload : List UInt8) : String := strip (decode payload)

/-- The length of the packet that the buffer begins with. -/
def total (buf : List UInt8) : Nat := 20 + unpackLe ((buf.drop 4).take 4)

/-- "Parse as many packets as possible": the payloads handed to `_on_payload`, and the buffer
left. A wrong checksum is only logged. -/
def drain (buf : List UInt8) : List String × List UInt8 :=
  if buf.length < 20 then ([], buf)
  else
    match find tcpHeader buf with
    | none => ([], buf.drop (buf.length - (tcpHeader.length - 1)))
    | some hpos =>
      let buf' := buf.drop hpos
      if buf'.length < 20 then ([], buf')
      else if buf'.length < total buf' then ([], buf')
      else
        let payload := parsePayload ((buf'.take (total buf')).drop 20)
        let rest := drain (buf'.drop (total buf'))
        (if payload = "" then rest.1 else payload :: rest.1, rest.2)
termination_by buf.length
decreasing_by
  simp only [List.length_drop, total]
  omega

/-- `_read_loop` while it is enabled: what it hands to `_on_payload`, given what `read` returns
one after the other. An empty read ends it with ConnectionError. -/
def readLoop (buf : List UInt8) : List (List UInt8) → List String
  | [] => []
  | chunk :: chunks =>
    if chunk = [] then []
    else
      let parsed := drain (buf ++ chunk)
      parsed.1 ++ readLoop parsed.2 chunks

theorem drain_short {buf : List UInt8} (h : buf.length < 20) : drain buf = ([], buf) := by
  rw [drain, if_pos h]

theorem drain_none {buf : List UInt8} (h : 20 ≤ buf.length) (hfind : find tcpHeader buf = none) :
    drain buf = ([], buf.drop (buf.length - (tcpHeader.length - 1))) := by
  rw [drain, if_neg (by omega), hfind]

theorem drain_wait {buf : List UInt8} (h : buf.length < total buf) (hhead : tcpHeader <+: buf) :
    drain buf = ([], buf) := by
  rw [drain, find_zero hhead]
  simp [h]

theorem drain_packet {buf : List UInt8} (h : total buf ≤ buf.length) (hhead : tcpHeader <+: buf) :
    drain buf =
      let payload := parsePayload ((buf.take (total buf)).drop 20)
      let rest := drain (buf.drop (total buf))
      (if payload = "" then rest.1 else payload :: rest.1, rest.2) := by
  have h20 : ¬ buf.length < 20 := by
    rw [total] at h
    omega
  rw [drain, if_neg h20, find_zero hhead]
  simp [h20, Nat.not_lt.mpr h]

/-- What precedes the header is dropped. -/
theorem drain_found {buf : List UInt8} {hpos : Nat} (h : 20 ≤ buf.length)
    (hfind : find tcpHeader buf = some hpos) : drain buf = drain (buf.drop hpos) := by
  have hhead := find_drop hfind
  rw [drain, if_neg (by omega), hfind]
  by_cases hshort : (buf.drop hpos).length < 20
  · rw [drain_short hshort]
    simp only [hshort, if_true]
  · by_cases hwait : (buf.drop hpos).length < total (buf.drop hpos)
    · rw [drain_wait hwait hhead]
      simp only [hshort, hwait, if_true, if_false]
    · rw [drain_packet (Nat.le_of_not_lt hwait) hhead]
      simp only [hshort, hwait, if_false]

theorem payloads_short {buf : List UInt8} (h : buf.length < 20) : (drain buf).1 = [] := by
  rw [drain_short h]

theorem payloads_none {buf : List UInt8} (hfind : find tcpHeader buf = none) :
    (drain buf).1 = [] := by
  by_cases h : buf.length < 20
  · exact payloads_short h
  · rw [drain_none (Nat.le_of_not_lt h) hfind]

theorem payloads_found {buf : List UInt8} {hpos : Nat} (hfind : find tcpHeader buf = some hpos) :
    (drain buf).1 = (drain (buf.drop hpos)).1 := by
  by_cases h : buf.length < 20
  · have hdrop : (buf.drop hpos).length < 20 := by
      rw [List.length_drop]
      omega
    rw [payloads_short h, payloads_short hdrop]
  · rw [drain_found (Nat.le_of_not_lt h) hfind]

theorem total_append {buf : List UInt8} (h : total buf ≤ buf.length) (rest : List UInt8) :
    total (buf ++ rest) = total buf := by
  have h20 : 20 ≤ buf.length := by
    rw [total] at h
    omega
  have hlength : 4 ≤ (buf.drop 4).length := by
    rw [List.length_drop]
    omega
  rw [total, List.drop_append_of_le_length (by omega), List.take_append_of_le_length hlength, total]

/-- Whatever the buffer holds, more data gives what it would have given after the parse. -/
theorem drain_append (buf rest : List UInt8) :
    (drain (buf ++ rest)).1 = (drain buf).1 ++ (drain ((drain buf).2 ++ rest)).1 := by
  induction hn : buf.length using Nat.strongRecOn generalizing buf with
  | _ n ih =>
    by_cases h20 : buf.length < 20
    · rw [drain_short h20, List.nil_append]
    have h20 : 20 ≤ buf.length := Nat.le_of_not_lt h20
    cases hfind : find tcpHeader buf with
    | none =>
      -- the header, if it comes, begins in the tail that is kept
      rw [drain_none h20 hfind, List.nil_append]
      have htail := find_tail hfind rest
      cases hkept : find tcpHeader
          (buf.drop (buf.length - (tcpHeader.length - 1)) ++ rest) with
      | none =>
        rw [hkept] at htail
        rw [payloads_none htail, payloads_none hkept]
      | some p =>
        rw [hkept] at htail
        rw [payloads_found htail, payloads_found hkept, ← List.drop_append_of_le_length (by omega),
          List.drop_drop, Nat.add_comm]
    | some hpos =>
      have hhead := find_drop hfind
      have hle := find_length hfind
      have hlength : (buf.drop hpos).length ≤ buf.length := by
        rw [List.length_drop]
        omega
      rw [drain_found h20 hfind, payloads_found (find_append hfind rest),
        List.drop_append_of_le_length (by omega)]
      generalize buf.drop hpos = s at hhead hlength
      by_cases hwait : s.length < total s
      · rw [drain_wait hwait hhead, List.nil_append]
      · have hwhole : total s ≤ s.length := Nat.le_of_not_lt hwait
        have hlong : total s ≤ (s ++ rest).length := by
          rw [List.length_append]
          omega
        have hshorter : (s.drop (total s)).length < n := by
          rw [List.length_drop, total]
          omega
        rw [drain_packet hwhole hhead,
          drain_packet (total_append hwhole rest ▸ hlong) (hhead.trans (List.prefix_append s rest)),
          total_append hwhole, List.take_append_of_le_length hwhole,
          List.drop_append_of_le_length hwhole]
        dsimp only
        rw [ih _ hshorter _ rfl]
        split
        · rfl
        · rfl

/-- What is left after the parse holds no packet. -/
theorem drain_done (buf : List UInt8) : (drain (drain buf).2).1 = [] := by
  have happend := drain_append buf []
  rw [List.append_nil, List.append_nil] at happend
  exact List.append_right_eq_self.mp happend.symm

theorem readLoop_eq {buf : List UInt8} {chunks : List (List UInt8)} (hbuf : (drain buf).1 = [])
    (h : ∀ chunk ∈ chunks, chunk ≠ []) : readLoop buf chunks = (drain (buf ++ chunks.flatten)).1 := by
  induction chunks generalizing buf with
  | nil => simp [readLoop, hbuf]
  | cons chunk chunks ih =>
    have hrest := ih (drain_done (buf ++ chunk)) fun c hc => h c (by simp [hc])
    rw [readLoop, if_neg (h chunk (by simp))]
    dsimp only
    rw [hrest, List.flatten_cons, ← List.append_assoc, drain_append (buf ++ chunk)]

/-- A text that a packet can carry: not empty, and as `strip` leaves it. -/
structure Payload where
  text : String
  nonempty : text ≠ ""
  stripped : strip text = text
  short : (encode text).length < 0x100000000

/-- The packets of the payloads, one after the other. -/
def packets (payloads : List Payload) : List UInt8 := payloads.flatMap fun p => mkPacket p.text

theorem parsePayload_encode (p : Payload) : parsePayload (encode p.text) = p.text := by
  rw [parsePayload, decode_encode, p.stripped]

theorem mkPacket_header (text : String) (rest : List UInt8) :
    tcpHeader <+: mkPacket text ++ rest := by
  simp [mkPacket]

theorem total_mkPacket (p : Payload) (rest : List UInt8) :
    total (mkPacket p.text ++ rest) = 20 + (encode p.text).length := by
  have hfield : ((mkPacket p.text ++ rest).drop 4).take 4 = packLe32 (encode p.text).length := by
    simp [mkPacket, tcpHeader, packLe32]
  rw [total, hfield, unpackLe_packLe32 p.short]

theorem length_mkPacket (text : String) : (mkPacket text).length = 20 + (encode text).length := by
  simp [mkPacket, tcpHeader, packLe32]
  omega

theorem drain_mkPacket (p : Payload) (rest : List UInt8) :
    (drain (mkPacket p.text ++ rest)).1 = p.text :: (drain rest).1 := by
  have htotal := total_mkPacket p rest
  have hlength := length_mkPacket p.text
  have hwhole : total (mkPacket p.text ++ rest) ≤ (mkPacket p.text ++ rest).length := by
    rw [htotal, List.length_append]
    omega
  have hbody : ((mkPacket p.text ++ rest).take (total (mkPacket p.text ++ rest))).drop 20 =
      encode p.text := by
    rw [htotal, ← hlength, List.take_left]
    simp [mkPacket, tcpHeader, packLe32]
  rw [drain_packet hwhole (mkPacket_header p.text rest)]
  dsimp only
  rw [hbody, parsePayload_encode, if_neg p.nonempty, htotal, ← hlength, List.drop_left]

theorem drain_packets (payloads : List Payload) :
    (drain (packets payloads)).1 = payloads.map Payload.text := by
  induction payloads with
  | nil => exact payloads_short (by decide)
  | cons p payloads ih =>
    rw [packets, List.flatMap_cons, drain_mkPacket, List.map_cons]
    exact congrArg (p.text :: ·) ih

/-- Nothing before the first packet is taken for one. -/
theorem drain_garbage {g : List UInt8} (payloads : List Payload)
    (hg : ∀ i, i < g.length → ¬ tcpHeader <+: (g ++ packets payloads).drop i) :
    (drain (g ++ packets payloads)).1 = (drain (packets payloads)).1 := by
  cases payloads with
  | nil =>
    have hnone : find tcpHeader (g ++ packets []) = none :=
      find_none (by decide) fun i hi => hg i (by simpa [packets] using hi)
    rw [payloads_none hnone]
    exact (payloads_short (by decide)).symm
  | cons p payloads =>
    have hfirst : tcpHeader <+: (g ++ packets (p :: payloads)).drop g.length := by
      rw [List.drop_left]
      exact mkPacket_header p.text _
    rw [payloads_found (find_eq hfirst hg), List.drop_left]

/-- However the stream is split into reads: the payloads come out as they were packed, and any
stream gives the same. -/
theorem packets_round_trip :
    (∀ (payloads : List Payload) (g : List UInt8) (chunks : List (List UInt8)),
      (∀ i, i < g.length → ¬ tcpHeader <+: (g ++ packets payloads).drop i) →
      (∀ chunk ∈ chunks, chunk ≠ []) → chunks.flatten = g ++ packets payloads →
      readLoop [] chunks = payloads.map Payload.text) ∧
    ∀ chunks chunks' : List (List UInt8), (∀ chunk ∈ chunks, chunk ≠ []) →
      (∀ chunk ∈ chunks', chunk ≠ []) → chunks.flatten = chunks'.flatten →
      readLoop [] chunks = readLoop [] chunks' := by
  have hempty : (drain []).1 = [] := payloads_short (by decide)
  refine ⟨fun payloads g chunks hg hchunks hstream => ?_, fun chunks chunks' h h' hsame => ?_⟩
  · rw [readLoop_eq hempty hchunks, List.nil_append, hstream, drain_garbage payloads hg,
      drain_packets]
  · rw [readLoop_eq hempty h, readLoop_eq hempty h', hsame]

def volume : Payload := ⟨"AXX+VOL+030", by decide, by decide, by decide⟩
def title : Payload := ⟨"AXX+\u0018\u00e9\u20ac&", by decide, by decide, by decide⟩

/-- Three bytes of a header come first; then a header arrives byte by byte. -/
def garbled : List UInt8 := [0x18, 0x96, 0x18] ++ packets [volume, title]

theorem packets_byte_by_byte :
    readLoop [] (garbled.map fun b => [b]) = ["AXX+VOL+030", "AXX+\u0018\u00e9\u20ac&"] ∧
      readLoop [] (garbled.map fun b => [b]) = readLoop [] [garbled] := by
  have hsplit : ∀ chunk ∈ garbled.map fun b => [b], chunk ≠ [] := by simp
  have hflatten : (garbled.map fun b => [b]).flatten = garbled := by
    rw [← List.flatMap_def]
    exact List.flatMap_singleton' garbled
  have hgarbage : ∀ i, i < 3 → ¬ tcpHeader <+: garbled.drop i := by decide
  refine ⟨packets_round_trip.1 [volume, title] [0x18, 0x96, 0x18] _ hgarbage hsplit hflatten,
    packets_round_trip.2 _ [garbled] hsplit (by decide) ?_⟩
  rw [hflatten, List.flatten_singleton]

end PiHub.PacketStream
