import Mathlib
import ReqlDriver.Connection.Settle

namespace ReqlDriver

namespace Frame

structure Carried (f : Frame) : Prop where
  fits : f.payload.bytes.length ≤ maxFrame
  reads : Json.ofBytes? f.payload.bytes = some f.payload

def stream (frames : List Frame) : List UInt8 := frames.flatMap bytes

def header (f : Frame) : List UInt8 :=
  LittleEndian.toBytes 8 f.token.toNat ++ LittleEndian.toBytes 4 f.payload.bytes.length

theorem length_header (f : Frame) : f.header.length = headerSize := by
  simp [header, LittleEndian.length_toBytes, headerSize]

theorem bytes_eq (f : Frame) : f.bytes = f.header ++ f.payload.bytes := rfl

theorem stream_cons (f : Frame) (r : List Frame) : stream (f :: r) = f.bytes ++ stream r := rfl

theorem token_of_header (token : UInt64) :
    UInt64.ofNat (LittleEndian.ofBytes (LittleEndian.toBytes 8 token.toNat)) = token := by
  have ht : token.toNat < twoTo (8 * 8) := token.toNat_lt
  rw [LittleEndian.ofBytes_toBytes, Nat.mod_eq_of_lt ht, UInt64.ofNat_toNat]

theorem size_of_header {size : Nat} (h : size ≤ maxFrame) :
    LittleEndian.ofBytes (LittleEndian.toBytes 4 size) = size := by
  have hs : size < twoTo (8 * 4) := Nat.lt_of_le_of_lt h (by decide)
  rw [LittleEndian.ofBytes_toBytes, Nat.mod_eq_of_lt hs]

theorem head_header {f : Frame} (h : f.payload.bytes.length ≤ maxFrame) (r : List UInt8) :
    head (f.header ++ r) = ofBody f.token f.payload.bytes.length r := by
  have hl : ¬ (f.header ++ r).length < headerSize := by
    rw [List.length_append, length_header]
    omega
  have htoken : (f.header ++ r).take 8 = LittleEndian.toBytes 8 f.token.toNat := by
    rw [header, List.append_assoc, List.take_left' (LittleEndian.length_toBytes 8 _)]
  have hsize : ((f.header ++ r).drop 8).take 4 =
      LittleEndian.toBytes 4 f.payload.bytes.length := by
    rw [header, List.append_assoc, List.drop_left' (LittleEndian.length_toBytes 8 _),
      List.take_left' (LittleEndian.length_toBytes 4 _)]
  have hrest : (f.header ++ r).drop headerSize = r := by
    rw [← f.length_header, List.drop_left]
  rw [head, if_neg hl, htoken, hsize, hrest, token_of_header, size_of_header h]

theorem head_bytes {f : Frame} (h : f.Carried) (r : List UInt8) :
    head (f.bytes ++ r) = .whole f r := by
  have hs : ¬ maxFrame < f.payload.bytes.length := Nat.not_lt.mpr h.fits
  have hl : ¬ (f.payload.bytes ++ r).length < f.payload.bytes.length := by
    rw [List.length_append]
    omega
  rw [bytes_eq, List.append_assoc, head_header h.fits, ofBody, if_neg hs, if_neg hl,
    List.take_left, List.drop_left, h.reads]

theorem head_of_cut {f : Frame} (h : f.payload.bytes.length ≤ maxFrame) {cut : List UInt8}
    (hp : cut <+: f.bytes) (hl : cut.length < f.bytes.length) : head cut = .short := by
  by_cases hc : cut.length < headerSize
  · rw [head, if_pos hc]
  have hh : f.header <+: cut := by
    apply List.prefix_of_prefix_length_le (List.prefix_append f.header _) hp
    rw [length_header]
    omega
  obtain ⟨r, rfl⟩ := hh
  have hs : ¬ maxFrame < f.payload.bytes.length := Nat.not_lt.mpr h
  have hr : r.length < f.payload.bytes.length := by
    simpa [bytes_eq] using hl
  rw [head_header h, ofBody, if_neg hs, if_pos hr]

theorem split_of_short {bytes : List UInt8} (h : head bytes = .short) :
    split bytes = ⟨[], bytes, none⟩ := by
  rw [split]
  split <;> simp_all

theorem split_of_whole {bytes rest : List UInt8} {f : Frame} (h : head bytes = .whole f rest) :
    split bytes = ⟨f :: (split rest).frames, (split rest).rest, (split rest).fault⟩ := by
  rw [split]
  split <;> simp_all

theorem split_stream {frames : List Frame} (h : ∀ f ∈ frames, f.Carried) {rest : List UInt8}
    (hr : head rest = .short) : split (stream frames ++ rest) = ⟨frames, rest, none⟩ := by
  induction frames with
  | nil => exact split_of_short hr
  | cons f r ih =>
    obtain ⟨hf, h⟩ := List.forall_mem_cons.mp h
    rw [stream_cons, List.append_assoc, split_of_whole (head_bytes hf _), ih h]

theorem readAll_stream {frames : List Frame} (h : ∀ f ∈ frames, f.Carried) {rest : List UInt8}
    (hr : head rest = .short) : readAll (stream frames ++ rest) = (frames, .io .unexpectedEof) := by
  rw [readAll, split_stream h hr]
  rfl

theorem exists_whole_of_cut {frames : List Frame}
    (h : ∀ f ∈ frames, f.payload.bytes.length ≤ maxFrame) {cut : List UInt8}
    (hp : cut <+: stream frames) :
    ∃ n rest, cut = stream (frames.take n) ++ rest ∧ head rest = .short ∧
      ∀ i ≤ frames.length, i ≤ n ↔ stream (frames.take i) <+: cut := by
  induction frames generalizing cut with
  | nil =>
    rw [List.prefix_nil.mp hp]
    exact ⟨0, [], rfl, rfl, fun i hi => by simpa [stream] using hi⟩
  | cons f r ih =>
    obtain ⟨hf, h⟩ := List.forall_mem_cons.mp h
    rw [stream_cons] at hp
    by_cases hc : f.bytes.length ≤ cut.length
    · obtain ⟨after, rfl⟩ := List.prefix_of_prefix_length_le (List.prefix_append f.bytes _) hp hc
      obtain ⟨n, rest, he, hs, hw⟩ := ih h ((List.prefix_append_right_inj _).mp hp)
      refine ⟨n + 1, rest, ?_, hs, ?_⟩
      · rw [List.take_succ_cons, stream_cons, List.append_assoc, ← he]
      · intro i hi
        cases i with
        | zero => simp [stream]
        | succ i =>
          rw [List.take_succ_cons, stream_cons, List.prefix_append_right_inj,
            ← hw i (Nat.le_of_succ_le_succ hi), Nat.add_le_add_iff_right]
    · have hl : cut.length < f.bytes.length := Nat.lt_of_not_le hc
      have hf' : cut <+: f.bytes :=
        List.prefix_of_prefix_length_le hp (List.prefix_append _ _) (Nat.le_of_lt hl)
      refine ⟨0, cut, rfl, head_of_cut hf hf' hl, ?_⟩
      intro i hi
      cases i with
      | zero => simp [stream]
      | succ i =>
        refine iff_of_false (Nat.not_succ_le_zero i) fun hw => ?_
        have hle := hw.length_le
        rw [List.take_succ_cons, stream_cons, List.length_append] at hle
        omega

end Frame

namespace Client

def transmitted (c : Client) : List UInt8 := Frame.stream c.written

def due : List (Work × Nat) → List Frame
  | [] => []
  | (.frame f, _) :: r => f :: due r
  | (.shutdown, _) :: _ => []

theorem writeNext_nil {c : Client} (hq : c.queue = []) : c.writeNext = c := by
  simp [writeNext, write, hq]

theorem writeNext_frame {c : Client} {f : Frame} {id : Nat} {rest : List (Work × Nat)}
    (hq : c.queue = (.frame f, id) :: rest) (hf : f.payload.bytes.length ≤ maxFrame) :
    c.writeNext.queue = rest ∧ c.writeNext.written = c.written ++ [f] := by
  simp [writeNext, write, hq, Nat.not_lt.mpr hf, updateTask]

theorem writeNext_shutdown {c : Client} {id : Nat} {rest : List (Work × Nat)}
    (hq : c.queue = (.shutdown, id) :: rest) :
    c.writeNext.queue = [] ∧ c.writeNext.written = c.written := by
  simp [writeNext, write, hq]

theorem written_turns {c : Client} {turns : List (Work × Nat)}
    (hn : c.queue.length ≤ turns.length)
    (hf : ∀ f ∈ due c.queue, f.payload.bytes.length ≤ maxFrame) :
    (turns.foldl (fun c _ => c.writeNext) c).written = c.written ++ due c.queue := by
  induction turns generalizing c with
  | nil =>
    have hq : c.queue = [] := List.eq_nil_of_length_eq_zero (Nat.le_zero.mp hn)
    simp [hq, due]
  | cons w turns ih =>
    rw [List.foldl_cons]
    match hq : c.queue with
    | [] =>
      rw [writeNext_nil hq, ih (by simp [hq]) (by simp [hq, due]), hq]
    | (.frame f, id) :: rest =>
      rw [hq, due, List.forall_mem_cons] at hf
      obtain ⟨hr, hw⟩ := writeNext_frame hq hf.1
      rw [hq, List.length_cons, List.length_cons] at hn
      rw [ih (by rw [hr]; exact Nat.le_of_succ_le_succ hn) (by rw [hr]; exact hf.2), hr, hw, due,
        List.append_assoc, List.singleton_append]
    | (.shutdown, id) :: rest =>
      obtain ⟨hr, hw⟩ := writeNext_shutdown hq
      rw [ih (by simp [hr]) (by simp [hr, due]), hr, hw, due, due]

theorem transmitted_writeAll {c : Client}
    (h : ∀ f ∈ due c.queue, f.payload.bytes.length ≤ maxFrame) :
    c.writeAll.transmitted = c.transmitted ++ Frame.stream (due c.queue) := by
  rw [transmitted, writeAll, written_turns (Nat.le_refl _) h, Frame.stream, List.flatMap_append]
  rfl

/-- What is written from a queue is read as the frames before its first shutdown, and then the end
of the stream. Of a part of it those frames are read whose bytes have all arrived, and then the end:
the first `n`, where the bytes of the first `i` frames are in the part if and only if `i ≤ n`. -/
theorem framing_lossless (c : Client) (h : ∀ f ∈ due c.queue, f.Carried) :
    ∃ bytes, c.writeAll.transmitted = c.transmitted ++ bytes ∧
      Frame.readAll bytes = (due c.queue, .io .unexpectedEof) ∧
      ∀ cut, cut <+: bytes → ∃ n, Frame.readAll cut = ((due c.queue).take n, .io .unexpectedEof) ∧
        ∀ i ≤ (due c.queue).length, i ≤ n ↔ Frame.stream ((due c.queue).take i) <+: cut := by
  have hfits : ∀ f ∈ due c.queue, f.payload.bytes.length ≤ maxFrame := fun f hf => (h f hf).fits
  refine ⟨Frame.stream (due c.queue), transmitted_writeAll hfits, ?_, ?_⟩
  · have hr := Frame.readAll_stream h (show Frame.head [] = .short from rfl)
    rwa [List.append_nil] at hr
  · intro cut hc
    obtain ⟨n, rest, rfl, hs, hw⟩ := Frame.exists_whole_of_cut hfits hc
    exact ⟨n, Frame.readAll_stream (fun f hf => h f (List.mem_of_mem_take hf)) hs, hw⟩

def tables : Frame := Frame.start 1 (Term.apply .tableList []) []

def farewell : Frame := Frame.control 2 .noreplyWait

def deserted : Client where
  queue := [(.frame tables, 0), (.frame farewell, 1), (.shutdown, 2), (.frame tables, 3)]

theorem framing_lossless_deserted :
    (∀ f ∈ due deserted.queue, f.Carried) ∧
      Frame.readAll (Frame.stream [tables, farewell]) = ([tables, farewell], .io .unexpectedEof) ∧
      Frame.readAll (tables.bytes ++ farewell.header) = ([tables], .io .unexpectedEof) := by
  have h : ∀ f ∈ due deserted.queue, f.Carried := by
    refine List.forall_mem_cons.mpr ⟨⟨?_, ?_⟩, List.forall_mem_singleton.mpr ⟨?_, ?_⟩⟩
    all_goals cbv
  obtain ⟨bytes, hb, hall, hcut⟩ := framing_lossless deserted h
  obtain rfl : bytes = Frame.stream [tables, farewell] := by
    rw [transmitted_writeAll fun f hf => (h f hf).fits] at hb
    exact (List.append_cancel_left hb).symm
  have hs : Frame.stream [tables, farewell] =
      (tables.bytes ++ farewell.header) ++ farewell.payload.bytes := by
    simp [Frame.stream, Frame.bytes_eq]
  obtain ⟨n, hn, hw⟩ := hcut (tables.bytes ++ farewell.header) ⟨_, hs.symm⟩
  have h1 : 1 ≤ n := (hw 1 (by decide)).mpr ⟨farewell.header, by simp [due, deserted, Frame.stream]⟩
  have h2 : ¬ 2 ≤ n := by
    intro h2
    have hle : (Frame.stream [tables, farewell]).length ≤
        (tables.bytes ++ farewell.header).length := ((hw 2 (by decide)).mp h2).length_le
    have hp : farewell.payload.bytes.length = 3 := by cbv
    rw [hs, List.length_append, hp] at hle
    omega
  obtain rfl : n = 1 := by omega
  exact ⟨h, hall, hn⟩

end Client

end ReqlDriver
