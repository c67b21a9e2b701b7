/-
What a client reads out of the frames.

A frame is one to three lines and a blank one.  None of its lines has a break in it: those of a
comment are replaced, those of the data are escaped, and a name or an id is given without any.  So
the parser reads a frame from the start of a line to the start of the next, and what it has
dispatched by then are the events that were framed.

The parser is that of `Lib.EventStream`, written from the grammar of the format and not from
the frames that are made here.  What is shown is for all frames of the handlers, in any order
and number, with heartbeats anywhere between them.
-/
import ExecRestApi.Lib.EventStream
import ExecRestApi.Lib.JsonLine
import ExecRestApi.Model.Sse

namespace ExecRestApi

open Py EventStream

/-! ### The lines of a frame

A name and an id come from a handler and hold no line break; `Produced` is that.  The data is
printed as JSON, and nothing that is printed is a control character.
-/

/-- A name or an id that a frame takes as it is. -/
def Unbroken (s : String) : Prop := OneLine s.toList ∧ Char.ofNat 0 ∉ s.toList

/-- What the formatters produce: the name and the id are unbroken, and the data has no floats. -/
inductive Produced : SseFrame → Prop where
  | retry {milliseconds : Int} {frame : SseFrame} (h : formatRetry milliseconds = .ok frame) :
      Produced frame
  | comment (text : String) : Produced (.comment text)
  | event {name : String} {id : Option String} {data : Json} {frame : SseFrame}
      (hname : name ≠ "") (hunbroken : Unbroken name) (hid : ∀ i, id = some i → Unbroken i)
      (hdata : data.WithoutFloats) (h : formatEvent name id data = .ok frame) : Produced frame

theorem oneLine_of_visible {cs : List Char} (h : Json.Visible cs) : OneLine cs := by
  intro c hc
  have hle := h c hc
  constructor
  · rintro rfl
    exact absurd hle (by decide)
  · rintro rfl
    exact absurd hle (by decide)

/-- The breaks of a comment are replaced. -/
theorem oneLine_dropBreaks (text : List Char) : OneLine (dropBreaks text) := by
  intro c hc
  obtain ⟨d, -, rfl⟩ := List.mem_map.mp hc
  split_ifs with hd
  · exact ⟨by decide, by decide⟩
  · exact not_or.mp hd

theorem oneLine_name {name : String} (h : name ∈ ["event", "id", "data", "retry"]) :
    OneLine (name.toList ++ [':', ' ']) := by
  have hall : ∀ n ∈ ["event", "id", "data", "retry"],
      '\n' ∉ n.toList ++ [':', ' '] ∧ '\r' ∉ n.toList ++ [':', ' '] := by decide +kernel
  exact oneLine_iff.mpr (hall name h)

/-- A field and its value are one line of the parser. -/
theorem read_field {name : String} (h : name ∈ ["event", "id", "data", "retry"]) {value : List Char}
    (hvalue : OneLine value) (b : Buffers) (rest : List Char) :
    (name.toList ++ ':' :: ' ' :: value ++ '\n' :: rest).foldl Parser.read b.start =
      rest.foldl Parser.read (b.field name.toList value).start := by
  have hnames : ∀ n ∈ ["event", "id", "data", "retry"], n.toList ≠ [] ∧ ':' ∉ n.toList := by
    decide +kernel
  have hline : OneLine (name.toList ++ ':' :: ' ' :: value) := by
    have := oneLine_append.mpr ⟨oneLine_name h, hvalue⟩
    rwa [List.append_assoc] at this
  rw [foldl_read_line hline, readLine_field value (hnames name h).1 (hnames name h).2]

theorem read_blank (b : Buffers) (rest : List Char) :
    ('\n' :: rest).foldl Parser.read b.start = rest.foldl Parser.read b.dispatch.start := rfl

/-! ### The frames

Between frames the parser has nothing buffered but the last id.  A frame takes it from one such
state to the next, and dispatches one event or none.
-/

/-- Between two frames: nothing is left over of the fields. -/
structure Between (b : Buffers) : Prop where
  type : b.type = []
  data : b.data = []

/-- What a frame dispatches after the id `lastId`. -/
def SseFrame.dispatched (lastId : List Char) : SseFrame → List Event
  | .event name id data => [⟨name.toList, data.print, (id.map String.toList).getD lastId⟩]
  | _ => []

/-- The id that stands after a frame. -/
def SseFrame.idAfter (lastId : List Char) : SseFrame → List Char
  | .event _ id _ => (id.map String.toList).getD lastId
  | _ => lastId

theorem field_event (b : Buffers) (value : List Char) :
    b.field "event".toList value = { b with type := value } := if_pos rfl

theorem field_data (b : Buffers) (value : List Char) :
    b.field "data".toList value = { b with data := b.data ++ value ++ ['\n'] } := by
  have h : "data".toList ≠ "event".toList := by decide +kernel
  unfold Buffers.field
  rw [if_neg h, if_pos rfl]

theorem field_id (b : Buffers) {value : List Char} (hvalue : Char.ofNat 0 ∉ value) :
    b.field "id".toList value = { b with lastId := value } := by
  have h : "id".toList ≠ "event".toList ∧ "id".toList ≠ "data".toList := by decide +kernel
  unfold Buffers.field
  rw [if_neg h.1, if_neg h.2, if_pos rfl, if_neg hvalue]

theorem field_retry (b : Buffers) (value : List Char) :
    ∃ time, b.field "retry".toList value = { b with reconnectionTime := time } := by
  have h : "retry".toList ≠ "event".toList ∧ "retry".toList ≠ "data".toList ∧
      "retry".toList ≠ "id".toList := by decide +kernel
  unfold Buffers.field
  rw [if_neg h.1, if_neg h.2.1, if_neg h.2.2, if_pos rfl]
  split_ifs
  · exact ⟨_, rfl⟩
  · exact ⟨b.reconnectionTime, rfl⟩

/-- How a frame leaves the parser. -/
structure ReadAs (frame : SseFrame) (b b' : Buffers) : Prop where
  between : Between b'
  lastId : b'.lastId = frame.idAfter b.lastId
  events : b'.events = b.events ++ frame.dispatched b.lastId

theorem readAs_of_no_data {frame : SseFrame} {b b' : Buffers} (hb : Between b)
    (hframe : frame.dispatched b.lastId = []) (hid : frame.idAfter b.lastId = b.lastId)
    (hb' : ∃ time, b' = { b with reconnectionTime := time }) : ReadAs frame b b'.dispatch := by
  obtain ⟨time, rfl⟩ := hb'
  rw [dispatch_of_no_data (by exact hb.data)]
  exact ⟨⟨rfl, hb.data⟩, hid.symm, by rw [hframe, List.append_nil]⟩

theorem read_retry (milliseconds : Int) {b : Buffers} (hb : Between b) (rest : List Char) :
    ∃ b', ((SseFrame.retry milliseconds).text ++ rest).foldl Parser.read b.start =
      rest.foldl Parser.read b'.start ∧ ReadAs (.retry milliseconds) b b' := by
  have htext : (SseFrame.retry milliseconds).text ++ rest =
      "retry".toList ++ ':' :: ' ' :: intText milliseconds ++ '\n' :: '\n' :: rest := by
    have hname : "retry: ".toList = "retry".toList ++ [':', ' '] := by decide +kernel
    unfold SseFrame.text
    rw [hname]
    simp only [List.append_assoc, List.cons_append, List.nil_append]
  rw [htext, read_field (by simp) (oneLine_of_visible (Json.visible_intText _)), read_blank]
  exact ⟨_, rfl, readAs_of_no_data hb rfl rfl (field_retry b _)⟩

theorem read_comment (text : String) {b : Buffers} (hb : Between b) (rest : List Char) :
    ∃ b', ((SseFrame.comment text).text ++ rest).foldl Parser.read b.start =
      rest.foldl Parser.read b'.start ∧ ReadAs (.comment text) b b' := by
  have hline : OneLine (':' :: ' ' :: dropBreaks text.toList) := by
    intro c hc
    rcases List.mem_cons.mp hc with rfl | hc
    · exact ⟨by decide, by decide⟩
    · rcases List.mem_cons.mp hc with rfl | hc
      · exact ⟨by decide, by decide⟩
      · exact oneLine_dropBreaks _ c hc
  have htext : (SseFrame.comment text).text ++ rest =
      (':' :: ' ' :: dropBreaks text.toList) ++ '\n' :: '\n' :: rest := by
    have hcolon : ": ".toList = [':', ' '] := by decide +kernel
    unfold SseFrame.text
    rw [hcolon]
    simp only [List.append_assoc, List.cons_append, List.nil_append]
  rw [htext, foldl_read_line hline, readLine_comment, read_blank]
  exact ⟨_, rfl, readAs_of_no_data hb rfl rfl ⟨b.reconnectionTime, rfl⟩⟩

/-- The id of a frame, if it has one. -/
def idLine : Option String → List Char
  | none => []
  | some i => "id".toList ++ ':' :: ' ' :: i.toList ++ ['\n']

theorem text_event (name : String) (id : Option String) (data : Json) (rest : List Char) :
    (SseFrame.event name id data).text ++ rest =
      "event".toList ++ ':' :: ' ' :: name.toList ++ '\n' :: (idLine id ++
        ("data".toList ++ ':' :: ' ' :: data.print ++ '\n' :: '\n' :: rest)) := by
  have hevent : "event: ".toList = "event".toList ++ [':', ' '] := by decide +kernel
  have hid : "id: ".toList = "id".toList ++ [':', ' '] := by decide +kernel
  have hdata : "data: ".toList = "data".toList ++ [':', ' '] := by decide +kernel
  unfold SseFrame.text idLine
  rw [hevent, hdata, hid]
  cases id <;> simp only [List.append_assoc, List.cons_append, List.nil_append]

/-- The line of the id sets it, and without one it stays. -/
theorem read_idLine {id : Option String} (h : ∀ i, id = some i → Unbroken i) (b : Buffers)
    (rest : List Char) : (idLine id ++ rest).foldl Parser.read b.start =
      rest.foldl Parser.read
        ({ b with lastId := (id.map String.toList).getD b.lastId } : Buffers).start := by
  cases id with
  | none => rfl
  | some i =>
      unfold idLine
      rw [List.append_assoc, List.singleton_append, read_field (by simp) (h i rfl).1,
        field_id b (h i rfl).2]
      rfl

theorem read_event {name : String} {id : Option String} {data : Json} (hname : name ≠ "")
    (hunbroken : Unbroken name) (hid : ∀ i, id = some i → Unbroken i) (hdata : data.WithoutFloats)
    {b : Buffers} (hb : Between b) (rest : List Char) :
    ∃ b', ((SseFrame.event name id data).text ++ rest).foldl Parser.read b.start =
      rest.foldl Parser.read b'.start ∧ ReadAs (.event name id data) b b' := by
  have hne : name.toList ≠ [] := fun h => hname (String.toList_eq_nil_iff.mp h)
  rw [text_event, read_field (by simp) hunbroken.1, field_event, read_idLine hid,
    read_field (by simp) (oneLine_of_visible (Json.visible_print data hdata)), field_data, read_blank,
    dispatch_of_data (show b.data ++ data.print ++ ['\n'] = data.print ++ ['\n'] by
      rw [hb.data, List.nil_append]) hne]
  exact ⟨_, rfl, ⟨rfl, rfl⟩, rfl, rfl⟩

/-- **A frame is read from one line start to the next.** -/
theorem read_frame {frame : SseFrame} (h : Produced frame) {b : Buffers} (hb : Between b)
    (rest : List Char) : ∃ b', (frame.text ++ rest).foldl Parser.read b.start =
      rest.foldl Parser.read b'.start ∧ ReadAs frame b b' := by
  cases h with
  | @retry milliseconds _ h =>
      unfold formatRetry at h
      split_ifs at h
      injection h with h
      rw [← h]
      exact read_retry milliseconds hb rest
  | comment text => exact read_comment text hb rest
  | event hname hunbroken hid hdata h =>
      rw [(formatEvent_eq_ok.mp h).2]
      exact read_event hname hunbroken hid hdata hb rest

/-! ### A stream of frames

By induction the parser dispatches the events of the frames, in order, each under the id that
was last given.  A text that looks like a frame is data like any other.
-/

/-- What a sequence of frames dispatches. -/
def dispatchedBy (lastId : List Char) : List SseFrame → List Event
  | [] => []
  | frame :: rest => frame.dispatched lastId ++ dispatchedBy (frame.idAfter lastId) rest

theorem read_frames {frames : List SseFrame} (h : ∀ frame ∈ frames, Produced frame) {b : Buffers}
    (hb : Between b) :
    ((frames.flatMap SseFrame.text).foldl Parser.read b.start).buffers.events =
      b.events ++ dispatchedBy b.lastId frames := by
  induction frames generalizing b with
  | nil => exact (List.append_nil _).symm
  | cons frame rest ih =>
      obtain ⟨hframe, hrest⟩ := List.forall_mem_cons.mp h
      obtain ⟨b', hread, hb'⟩ := read_frame hframe hb (rest.flatMap SseFrame.text)
      rw [List.flatMap_cons, hread, ih hrest hb'.between, hb'.events, hb'.lastId, List.append_assoc]
      rfl

/-- The bytes of a stream. -/
def streamBytes : List SseFrame → ByteArray
  | [] => ByteArray.empty
  | frame :: rest => frame.bytes ++ streamBytes rest

theorem streamBytes_eq (frames : List SseFrame) :
    streamBytes frames = (String.ofList (frames.flatMap SseFrame.text)).toUTF8 := by
  induction frames with
  | nil => rfl
  | cons frame rest ih =>
      rw [streamBytes, ih, SseFrame.bytes, List.flatMap_cons, String.toUTF8, String.toUTF8,
        String.toUTF8, String.toByteArray_ofList, String.toByteArray_ofList,
        String.toByteArray_ofList, List.utf8Encode_append]

/-- No frame begins with a byte order mark. -/
theorem head_text (frame : SseFrame) (rest : List Char) :
    (frame.text ++ rest).head? ≠ some (Char.ofNat 0xfeff) := by
  have hretry : "retry: ".toList = ['r', 'e', 't', 'r', 'y', ':', ' '] := by decide +kernel
  have hcolon : ": ".toList = [':', ' '] := by decide +kernel
  cases frame with
  | retry milliseconds =>
      unfold SseFrame.text
      rw [hretry]
      exact fun h => absurd (Option.some.inj h) (by decide)
  | comment text =>
      unfold SseFrame.text
      rw [hcolon]
      exact fun h => absurd (Option.some.inj h) (by decide)
  | event name id data =>
      have hevent : "event".toList = ['e', 'v', 'e', 'n', 't'] := by decide +kernel
      rw [text_event, hevent]
      exact fun h => absurd (Option.some.inj h) (by decide)

theorem events_streamBytes {frames : List SseFrame} (h : ∀ frame ∈ frames, Produced frame) :
    EventStream.events (streamBytes frames) = some (dispatchedBy [] frames) := by
  have hmark : (frames.flatMap SseFrame.text).head? ≠ some (Char.ofNat 0xfeff) := by
    cases frames with
    | nil => nofun
    | cons frame rest => exact head_text frame _
  rw [streamBytes_eq, events_toUTF8]
  unfold readText
  rw [if_neg hmark, read_frames h ⟨rfl, rfl⟩]
  rfl

/-- The events of a stream that was written frame by frame: one for each `format_event`, with the
type and the id it was given and with data that is read as the value. -/
inductive Dispatched : List Char → List SseFrame → List Event → Prop where
  | nil (lastId : List Char) : Dispatched lastId [] []
  | retry {lastId : List Char} {milliseconds : Int} {frames : List SseFrame} {es : List Event}
      (rest : Dispatched lastId frames es) :
      Dispatched lastId (.retry milliseconds :: frames) es
  | comment {lastId : List Char} {text : String} {frames : List SseFrame} {es : List Event}
      (rest : Dispatched lastId frames es) : Dispatched lastId (.comment text :: frames) es
  | event {lastId : List Char} {name : String} {id : Option String} {data : Json} {e : Event}
      {frames : List SseFrame} {es : List Event} (htype : e.type = name.toList)
      (hid : e.lastId = (id.map String.toList).getD lastId)
      (hdata : ∀ depth, data.depth ≤ depth → Json.loads depth e.data = .ok data)
      (rest : Dispatched e.lastId frames es) :
      Dispatched lastId (.event name id data :: frames) (e :: es)

theorem dispatched_of_produced {frames : List SseFrame} (h : ∀ frame ∈ frames, Produced frame)
    (lastId : List Char) : Dispatched lastId frames (dispatchedBy lastId frames) := by
  induction frames generalizing lastId with
  | nil => exact .nil lastId
  | cons frame rest ih =>
      obtain ⟨hframe, hrest⟩ := List.forall_mem_cons.mp h
      cases hframe with
      | @retry milliseconds _ h =>
          unfold formatRetry at h
          split_ifs at h
          injection h with h
          rw [← h]
          exact .retry (ih hrest lastId)
      | comment text => exact .comment (ih hrest lastId)
      | event hname hunbroken hid hdata h =>
          obtain ⟨hfit, rfl⟩ := formatEvent_eq_ok.mp h
          have hplain := Json.plain_of_withoutFloats _ hdata hfit
          exact .event rfl rfl (fun depth hdepth => Json.loads_print hplain hdepth) (ih hrest _)

/-- **A stream dispatches what was framed**, and nothing else. -/
theorem frames_dispatched (frames : List SseFrame) (h : ∀ frame ∈ frames, Produced frame) :
    ∃ es, EventStream.events (streamBytes frames) = some es ∧ Dispatched [] frames es :=
  ⟨_, events_streamBytes h, dispatched_of_produced h []⟩

/-- Data with a blank line and a field in it. -/
def forgingData : Json := .obj [("data", .str "\n\nid: 3")]

/-- Breaks and fields in a comment and in the data. -/
def forgingFrames : List SseFrame :=
  [.retry 5000, .comment "a\n\rdata: b", .event "log" (some "1:2") forgingData]

theorem produced_forgingFrames : ∀ frame ∈ forgingFrames, Produced frame := by
  have hlog : Unbroken "log" ∧ Unbroken "1:2" := by
    rw [Unbroken, Unbroken, oneLine_iff, oneLine_iff]
    decide +kernel
  have hretry : formatRetry 5000 = .ok (.retry 5000) := if_pos (by decide +kernel)
  refine List.forall_mem_cons.mpr ⟨.retry hretry, ?_⟩
  refine List.forall_mem_cons.mpr ⟨.comment _, List.forall_mem_singleton.mpr ?_⟩
  have hdata : forgingData.WithoutFloats := ⟨by simp, trivial, trivial⟩
  have hframe : formatEvent "log" (some "1:2") forgingData = .ok (.event "log" (some "1:2") forgingData) :=
    if_pos rfl
  refine .event (by decide) hlog.1 (fun i hi => ?_) hdata hframe
  injection hi with hi
  rw [← hi]
  exact hlog.2

theorem frames_dispatched_forging : ∃ es, EventStream.events (streamBytes forgingFrames) = some es ∧
    Dispatched [] forgingFrames es :=
  frames_dispatched forgingFrames produced_forgingFrames

end ExecRestApi
