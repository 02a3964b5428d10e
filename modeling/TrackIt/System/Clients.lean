import TrackIt.System.Pipeline

/-!
# What clients get

Of the frames in the stream of the receiver, `tel_parser_task` sees those that were accepted and found room in the
queue; everything a client reads or is notified of is made of these.

- `client_reads_latest`: a read answers with the latest messages among them that were set;
- `client_reads_frame`: what a client decodes is what a NAV-PVT in the stream says;
- `notifications_ordered`: notifications are what was published, and never go back;
- `notifications_fresh`: and no value is forgotten;
- `lossless_iff`: when all frames are seen.
-/

namespace TrackIt.System

open TrackIt.Lib TrackIt.Framer TrackIt.Telemetry TrackIt.Gatt Reader

variable {m10 : M10Codes} {snprintf : GnssBaseData → List UInt8} {gBleAttributes : Attr → UInt16}
variable {w : World} {buf : RxBuf} {aux : Option (List UInt8)} {tr : List (World × Label)}

/-! ## Where the values come from -/

theorem exists_frame {frames : List (List UInt8)} {ms : List UbxMessage} {m : UbxMessage}
    (h : List.Forall₂ Carries frames ms) (hm : m ∈ ms) : ∃ f ∈ frames, Carries f m := by
  induction h with
  | nil => cases hm
  | cons hc _ ih =>
    rcases List.mem_cons.1 hm with rfl | hm
    · exact ⟨_, List.mem_cons_self, hc⟩
    · obtain ⟨f, hf, hc⟩ := ih hm
      exact ⟨f, List.mem_cons_of_mem _ hf, hc⟩

/-- The items that were handled. -/
def World.items (w : World) : List Item := w.handled.map Handled.item

theorem ubxFrames_sublist (ms : List Msg) : (ubxFrames ms).Sublist (ms.map Msg.bytes) := by
  induction ms with
  | nil => exact List.Sublist.refl _
  | cons m ms ih =>
    cases m with
    | nmea b => exact ih.cons _
    | ubx b => exact ih.cons_cons _

/-- The frames that were accepted and queued lie in the stream. -/
theorem frames_laid (h : Inv m10 w) : ∃ frames, Laid w.uart.received frames ∧
    (∀ f ∈ frames, (Msg.ubx f).Framed) ∧ List.Forall₂ Carries frames w.queued := by
  obtain ⟨frames, hsub, hc⟩ := h.frames
  obtain ⟨consumed, hrec, hlaid⟩ := h.uart.layout
  refine ⟨frames, ?_, fun f hf => h.uart.framed _ (mem_ubxFrames.1 (hsub.subset hf)), hc⟩
  rw [hrec]
  exact (hlaid.sublist (hsub.trans (ubxFrames_sublist _))).gap _

/-- The payload of the frame `f` as `handle_ubx_msg` queues it: filled up with zeros, or all zeros. -/
def Says (f : List UInt8) (p : Payload) : Prop :=
  p = zeroPayload ∨ (le16 (f.getD 4 0) (f.getD 5 0)).toNat ≤ 256 ∧
    ∀ i : Fin 256, p.get i = if i.1 < (le16 (f.getD 4 0) (f.getD 5 0)).toNat then f.getD (6 + i.1) 0 else 0

theorem says_of_carries {f : List UInt8} {m : UbxMessage} (h : Carries f m) : Says f (telparserPayload m) := by
  unfold telparserPayload
  by_cases hlen : 256 < m.length.toNat
  · rw [if_pos hlen]
    exact .inl rfl
  · rw [if_neg hlen]
    cases hitem : m.payloadPoolItem with
    | none => exact .inl rfl
    | some item =>
      refine .inr ⟨by rw [← h.length]; omega, fun i => ?_⟩
      rw [← h.length]
      have hget : (memcpy zeroPayload item m.length.toNat).get i =
          if i.1 < m.length.toNat then item.get ⟨i.1, by omega⟩ else zeroPayload.get i :=
        Vector.getElem_ofFn i.isLt
      rw [hget]
      split
      · rename_i hi
        exact h.payload item hitem ⟨i.1, by omega⟩ hi
      · exact Vector.getElem_replicate i.isLt

theorem latest_mem {p : Item → Bool} {items before : List Item} {i : Item} (h : latest p items = some (before, i)) :
    i ∈ items ∧ p i = true := by
  induction items using List.reverseRecOn with
  | nil => cases h
  | append_singleton items j ih =>
    rw [latest_snoc] at h
    split at h
    · rename_i hp
      cases h
      exact ⟨List.mem_append_right _ List.mem_cons_self, hp⟩
    · exact ⟨List.mem_append_left _ (ih h).1, (ih h).2⟩

/-- A NAV-PVT of the stream whose payload, as it was queued, is `p`. -/
def InStream (m10 : M10Codes) (stream : List UInt8) (p : Payload) : Prop :=
  ∃ f, f <:+: stream ∧ (Msg.ubx f).Framed ∧ f.getD 2 0 = m10.ubxClassNav ∧ f.getD 3 0 = m10.ubxIdNavPvt ∧
    Says f p

/-- A NAV-PVT that was queued lies in the stream. -/
theorem inStream_of_queued (h : Inv m10 w) {m : UbxMessage} (hm : m ∈ w.queued) (hpvt : m.IsPvt m10) :
    InStream m10 w.uart.received (telparserPayload m) := by
  obtain ⟨frames, hlaid, hframed, hc⟩ := frames_laid h
  obtain ⟨f, hf, hcarries⟩ := exists_frame hc hm
  exact ⟨f, hlaid.isInfix hf, hframed f hf, hcarries.cls ▸ hpvt.1, hcarries.messageId ▸ hpvt.2,
    says_of_carries hcarries⟩

/-- What is published after any number of messages is the initial value, or from a NAV-PVT in the stream. -/
theorem published_of_frame (h : Inv m10 w) (k : Nat) :
    (parserAfter m10 (w.handled.take k)).gnssBaseData = gnssBaseData₀ ∨
    ∃ p, InStream m10 w.uart.received p ∧ (parserAfter m10 (w.handled.take k)).gnssBaseData = baseData p := by
  rw [parserAfter, (latest_handleAll _).base, latestBase]
  cases hl : latest (Item.pvtSet m10) ((w.handled.take k).map Handled.item) with
  | none => exact .inl rfl
  | some bi =>
    obtain ⟨before, i⟩ := bi
    obtain ⟨hmem, hset⟩ := latest_mem hl
    obtain ⟨hd, hhd, rfl⟩ := List.mem_map.1 hmem
    have hpvt : hd.item.input.IsPvt m10 := of_decide_eq_true (Bool.and_eq_true_iff.1 hset).1
    have hq : hd.message ∈ w.queued := List.mem_append_left _ (List.mem_map_of_mem (List.mem_of_mem_take hhd))
    exact .inr ⟨_, inStream_of_queued h hq hpvt, rfl⟩

/-! ## One frame -/

section OneFrame

variable (m10) (snprintf) (gBleAttributes)

/-- A string that fits is read in one event. -/
theorem read_run {f : List UInt8} (hpos : 0 < f.length) (hlen : f.length ≤ uartRxBufSize) :
    ∃ tr s, s.live = f ∧ Run (Step m10 snprintf gBleAttributes) (.boot m10 emptyBuf none) tr
      { World.boot m10 emptyBuf none with uart := ⟨.framing true, s, f, []⟩ } := by
  obtain ⟨s, hs, hlive⟩ := drainBody_fits (s := emptyBuf.clear) (r := ⟨f.length, f⟩) hpos (Nat.le_refl _)
    (by rwa [RxBuf.currDataLen_clear, Nat.zero_add])
  rw [RxBuf.live_clear, List.nil_append] at hlive
  have hread : emptyBuf.clear.readBytes ⟨f.length, f⟩ = f := by
    have hto : emptyBuf.clear.toRead ⟨f.length, f⟩ = f.length := by
      simp only [RxBuf.toRead, RxBuf.spaceLeft, RxBuf.currDataLen_clear, Nat.sub_zero]
      exact ite_eq_left_iff.2 fun h => by omega
    rw [RxBuf.readBytes, hto]
    exact List.take_length
  have h₁ : Step m10 snprintf gBleAttributes (.boot m10 emptyBuf none) (.uart (.event .data))
      { World.boot m10 emptyBuf none with uart := ⟨.draining, emptyBuf.clear, [], []⟩ } :=
    .uart _ _ _ (by rintro _ ⟨⟩) (.data _ .data rfl (.inl rfl))
  have h₂ : Step m10 snprintf gBleAttributes
      { World.boot m10 emptyBuf none with uart := ⟨.draining, emptyBuf.clear, [], []⟩ } (.uart (.read ⟨f.length, f⟩))
      { World.boot m10 emptyBuf none with uart := ⟨.draining, s, f, []⟩ } := by
    refine .uart _ _ _ (by rintro _ ⟨⟩) ?_
    have hstep := Framer.Step.read ⟨.draining, emptyBuf.clear, [], []⟩ ⟨f.length, f⟩ s rfl hs
    rwa [hread, List.nil_append] at hstep
  have h₃ : Step m10 snprintf gBleAttributes
      { World.boot m10 emptyBuf none with uart := ⟨.draining, s, f, []⟩ } (.uart (.drained ⟨0, []⟩))
      { World.boot m10 emptyBuf none with uart := ⟨.framing true, s, f, []⟩ } :=
    .uart _ _ _ (by rintro _ ⟨⟩) (.drained _ ⟨0, []⟩ rfl (by simp [RxBuf.drainBody]))
  exact ⟨_, s, hlive, ((Run.single h₁).snoc h₂).snoc h₃⟩

/-- A queued message is handled. -/
theorem deliver_run {w : World} {m : UbxMessage} {rest : List UbxMessage} (hidle : w.taken = none)
    (hset : ∀ task, (w.subs task).signalling = 0) (hq : w.telemetry.queue = m :: rest) :
    ∃ tr w', Run (Step m10 snprintf gBleAttributes) w tr w' ∧
      w'.uart = w.uart ∧ w'.pending = w.pending ∧ w'.done = w.done ∧ w'.handled = w.handled ++ [⟨m, true, true⟩] ∧
      w'.subs = fun task =>
        if task.signalled m10 (telparserInput m) true true then (w.subs task).put else w.subs task := by
  have h : Step m10 snprintf gBleAttributes w .receive
      { w with telemetry := ⟨rest, w.telemetry.parser⟩, taken := some m } := .receive w m rest hidle hset hq
  exact ⟨_, _, (Run.single h).snoc (.handle _ m true true rfl), rfl, rfl, rfl, rfl, rfl⟩

/-- A task that waits is signalled, gets a copy of its value and sends it. -/
theorem notify_run {w : World} (task : Notifier) (hidle : w.pending task = none)
    (hsub : w.subs task = Subscriber.init.put) :
    ∃ tr w', Run (Step m10 snprintf gBleAttributes) w tr w' ∧ w'.uart = w.uart ∧ w'.handled = w.handled ∧
      (w'.subs task).UpToDate ∧ w'.pending task = none ∧
      w'.done task = w.done task ++ [(⟨w.current m10 task, w.handled.length⟩, true)] := by
  have h₁ : Step m10 snprintf gBleAttributes w (.signal task) _ := .signal w task (by rw [hsub]; exact Nat.one_pos)
  have h₂ := (Run.single h₁).snoc (.wake _ task hidle (by simp [Subscriber.signal])
    (by simp [Subscriber.signal, hsub, Subscriber.put, Subscriber.init]))
  have h₃ := h₂.snoc (.copy _ task hidle (by simp [Subscriber.wake]))
  refine ⟨_, _, h₃.snoc (.send _ task _ true (Function.update_self task _ _)), rfl, rfl, ?_, ?_, ?_⟩
  · simp only [Function.update_self, hsub]
    exact ⟨rfl, rfl, rfl, rfl⟩
  · exact Function.update_self task _ _
  · exact Function.update_self task _ w.done

/-- An accepted frame is read in one event, handed on and queued. -/
theorem queued_run (parse : ParseMessage) {f : List UInt8} {m : UbxMessage} (hf : Frame f)
    (hlen : f.length ≤ uartRxBufSize) (hm : parse.run f = some m) :
    ∃ tr w, Run (Step m10 snprintf gBleAttributes) (.boot m10 emptyBuf none) tr w ∧ w.uart.received = f ∧
      w.telemetry.queue = [m] ∧ w.taken = none ∧ w.handled = [] ∧ w.subs = (fun _ => .init) ∧
      w.pending = (fun _ => none) ∧ w.done = fun _ => [] := by
  have hpos : 0 < f.length := by
    obtain ⟨cls, id, lenLo, lenHi, payload, ckA, ckB, rfl, -⟩ := hf
    simp
  obtain ⟨tr, s, hlive, h⟩ := read_run m10 snprintf gBleAttributes hpos hlen
  have hcurr : 0 < s.currDataLen := by rwa [← RxBuf.length_live, hlive]
  have hdispatch : (s.iterate parse.accept).dispatch = some (.ubx f) := by
    have hcomplete : (Msg.ubx f).Complete parse.accept := ⟨hf, by simp [ParseMessage.accept, hm]⟩
    have hnext := next_complete hcomplete []
    rw [List.append_nil] at hnext
    have his := iterate_is parse.accept s
    rw [hlive] at his
    change Iteration.Is _ (next parse.accept (Msg.ubx f).bytes) at his
    rw [hnext] at his
    exact his.2.1
  have hubx : ubxMessage parse (s.iterate parse.accept).dispatch = some m := by rw [hdispatch, ubxMessage, hm]
  refine ⟨_, _, h.snoc (.iterate _ parse rfl hcurr), rfl, ?_, rfl, rfl, rfl, rfl, rfl⟩
  rw [hubx]
  rfl

/-- **An accepted frame makes it to a client**: it is queued, handled and sent as a notification. -/
theorem frame_run (parse : ParseMessage) {f : List UInt8} {m : UbxMessage} (hf : Frame f)
    (hlen : f.length ≤ uartRxBufSize) (hm : parse.run f = some m) (hpvt : (telparserInput m).IsPvt m10) :
    ∃ tr w, Run (Step m10 snprintf gBleAttributes) (.boot m10 emptyBuf none) tr w ∧ w.uart.received = f ∧
      w.handled = [⟨m, true, true⟩] ∧ (w.subs .locAndSpd).UpToDate ∧ w.pending .locAndSpd = none ∧
      ∃ n, n.version = 1 ∧ w.done .locAndSpd = [(n, true)] := by
  obtain ⟨tr₁, w₁, h₁, hrec₁, hq₁, htaken₁, hhandled₁, hsubs₁, hpending₁, hdone₁⟩ := queued_run m10 snprintf
    gBleAttributes parse hf hlen hm
  obtain ⟨tr₂, w₂, h₂, huart₂, hpending₂, hdone₂, hhandled₂, hsubs₂⟩ := deliver_run m10 snprintf gBleAttributes htaken₁
    (fun task => by rw [hsubs₁]; rfl) hq₁
  obtain ⟨tr₃, w₃, h₃, huart₃, hhandled₃, hsub₃, hpending₃, hdone₃⟩ := notify_run m10 snprintf gBleAttributes
    (w := w₂) .locAndSpd (by rw [hpending₂, hpending₁]) (by rw [hsubs₂, hsubs₁]; simp [Notifier.signalled, hpvt])
  refine ⟨_, w₃, (h₁.trans h₂).trans h₃, by rw [huart₃, huart₂, hrec₁], ?_, hsub₃, hpending₃,
    ⟨w₂.current m10 .locAndSpd, w₂.handled.length⟩, ?_, ?_⟩
  · rw [hhandled₃, hhandled₂, hhandled₁, List.nil_append]
  · rw [hhandled₂, hhandled₁]
    rfl
  · rw [hdone₃, hdone₂, hdone₁, List.nil_append]

end OneFrame

/-- A NAV-PVT of 92 bytes, all of them 3. -/
def pvtBytes : List UInt8 :=
  ubxSyncCharOne :: ubxSyncCharTwo :: 0x01 :: 0x07 :: 92 :: 0 :: (List.replicate 92 3 ++ [0x78, 0xE3])

theorem frame_pvtBytes : Frame pvtBytes := ⟨0x01, 0x07, 92, 0, List.replicate 92 3, 0x78, 0xE3, rfl, rfl⟩

/-- Its message. -/
def pvtMessage : UbxMessage := ⟨0x01, 0x07, 92, some (Vector.replicate 1024 3)⟩

theorem carries_pvtBytes : Carries pvtBytes pvtMessage where
  cls := rfl
  messageId := rfl
  length := rfl
  payload item hitem i hi := by
    obtain rfl := Option.some.inj hitem
    have hbytes : ∀ j : Fin 92, pvtBytes.getD (6 + j.1) 0 = 3 := by decide +kernel
    rw [hbytes ⟨i.1, hi⟩]
    exact Vector.getElem_replicate i.isLt

/-- A parser that accepts this frame. -/
def parsePvtBytes : ParseMessage where
  run f := if f = pvtBytes then some pvtMessage else none
  carries f m h := by
    split at h
    · rename_i hf
      obtain rfl := Option.some.inj h
      exact hf ▸ carries_pvtBytes
    · cases h

theorem pvt_run : ∃ tr w, Run (Step someCodes someText someHandles) (.boot someCodes emptyBuf none) tr w ∧
    w.uart.received = pvtBytes ∧ w.handled = [⟨pvtMessage, true, true⟩] ∧ (w.subs .locAndSpd).UpToDate ∧
    w.pending .locAndSpd = none ∧ ∃ n, n.version = 1 ∧ w.done .locAndSpd = [(n, true)] :=
  frame_run someCodes someText someHandles parsePvtBytes frame_pvtBytes (by decide) (by simp [parsePvtBytes]) ⟨rfl, rfl⟩

/-! ## Reads -/

/-- A read of `chr` is answered, if both calls of its callback succeed, with bytes that a client decodes to `a`, and
else with an error. -/
def World.Answers {α : Type} (w : World) (chr : ChrDef) (decode : Reader α) (a : α) : Prop :=
  ∃ source bytes, Reads decode bytes a ∧ ∀ calls : Calls, (chr.accessCb calls w.link.values .readChr).1 =
    if calls.get && calls.append then .data (some source) bytes else .err .insufficientRes

/-- A callback that answers with the encoding of a shared value. -/
theorem answers_shared {α β : Type} {chr : ChrDef} {source : Source} {value : SharedValues → α}
    {encode : α → List UInt8} {decode : Reader β} {b : β}
    (hcb : ∀ c v, chr.accessCb c v .readChr = readShared source value encode c v .readChr)
    (hreads : Reads decode (encode (value w.link.values)) b) : w.Answers chr decode b := by
  refine ⟨source, _, hreads, fun c => ?_⟩
  rw [hcb]
  obtain ⟨get, append, set⟩ := c
  cases get <;> cases append <;> rfl

theorem answers_locAndSpd (m10 : M10Codes) (w : World) : w.Answers (locationAndSpeedChr m10) decodeLocationAndSpeed
    (locationAndSpeedOf m10 w.link.values.gnssBaseData) :=
  answers_shared (fun _ _ => rfl) (decode_locAndSpd m10 _)

/-- **What a client decodes is what some NAV-PVT in the stream says**, or the value from before the first. The payload
of the frame may have been lost on the way; then it is read as zeros. -/
theorem client_reads_frame (h : Run (Step m10 snprintf gBleAttributes) (.boot m10 buf aux) tr w) :
    ∃ location, w.Answers (locationAndSpeedChr m10) decodeLocationAndSpeed location ∧
      (location = locationAndSpeedOf m10 gnssBaseData₀ ∨
        ∃ p, InStream m10 w.uart.received p ∧ location = measuredPvt m10 p) := by
  have hinv := inv_run h
  refine ⟨_, answers_locAndSpd m10 w, ?_⟩
  have hbase : w.link.values.gnssBaseData =
      (parserAfter m10 (w.handled.take w.handled.length)).gnssBaseData := by
    rw [hinv.base, hinv.parser, List.take_length]
  rcases published_of_frame hinv w.handled.length with hp | ⟨p, hp, he⟩
  · exact .inl (by rw [hbase, hp])
  · exact .inr ⟨p, hp, by rw [hbase, he, locationAndSpeedOf_baseData]⟩

theorem client_reads_frame_pvt : ∃ tr w, Run (Step someCodes someText someHandles)
      (.boot someCodes emptyBuf none) tr w ∧ w.uart.received = pvtBytes ∧
    ∃ location, w.Answers (locationAndSpeedChr someCodes) decodeLocationAndSpeed location ∧
      (location = locationAndSpeedOf someCodes gnssBaseData₀ ∨
        ∃ p, InStream someCodes w.uart.received p ∧ location = measuredPvt someCodes p) := by
  obtain ⟨tr, w, hr, hrec, -⟩ := pvt_run
  exact ⟨tr, w, hr, hrec, client_reads_frame hr⟩

/-! ## Notifications -/

theorem sent_sublist (w : World) (task : Notifier) : (w.sent task).Sublist (w.copies task) :=
  (List.filter_sublist.map Prod.fst).trans (List.sublist_append_left _ _)

/-- **Notifications are what was published, and never go back**: what a task has sent are the encodings of the shared
values after `v₁ ≤ v₂ ≤ …` messages, none of them later than what a client can read now. -/
theorem notifications_ordered (h : Run (Step m10 snprintf gBleAttributes) (.boot m10 buf aux) tr w)
    (task : Notifier) : ∃ versions : List Nat, versions.Pairwise (· ≤ ·) ∧ (∀ v ∈ versions, v ≤ w.handled.length) ∧
      (w.sent task).map Notification.bytes = versions.map fun v =>
        task.format m10 (latestBase m10 (w.items.take v)) (latestPrecision m10 (w.items.take v)) := by
  have hinv := inv_run h
  have hsub := sent_sublist w task
  refine ⟨(w.sent task).map Notification.version, (hinv.ordered task).sublist (hsub.map _), ?_, ?_⟩
  · intro v hv
    obtain ⟨n, hn, rfl⟩ := List.mem_map.1 hv
    exact (hinv.copies task n (hsub.subset hn)).1
  · rw [List.map_map]
    refine List.map_congr_left fun n hn => ?_
    rw [(hinv.copies task n (hsub.subset hn)).2, Function.comp_apply, parserAfter, (latest_handleAll _).base,
      (latest_handleAll _).precision, World.items, List.map_take]

theorem notifications_ordered_pvt : ∃ tr w, Run (Step someCodes someText someHandles)
      (.boot someCodes emptyBuf none) tr w ∧ (w.sent .locAndSpd).map Notification.version = [1] ∧
    ∃ versions : List Nat, versions.Pairwise (· ≤ ·) ∧ (∀ v ∈ versions, v ≤ w.handled.length) ∧
      (w.sent .locAndSpd).map Notification.bytes = versions.map fun v =>
        Notifier.format someCodes .locAndSpd (latestBase someCodes (w.items.take v))
          (latestPrecision someCodes (w.items.take v)) := by
  obtain ⟨tr, w, hr, -, -, -, -, n, hn, hdone⟩ := pvt_run
  exact ⟨tr, w, hr, by simp [World.sent, hdone, hn], notifications_ordered hr .locAndSpd⟩

/-- Every frame that was handed on is queued, taken or handled, in order. -/
def World.Lossless (w : World) : Prop := List.Forall₂ Carries (ubxFrames w.uart.dispatched) w.queued

/-- There is room in the queue for the frame that an iteration hands on. -/
def RoomFor (w : World) : Label → Prop
  | .iterate parse =>
    ∀ f, (w.uart.buf.iterate parse.accept).dispatch = some (.ubx f) → w.telemetry.queue.length < telparserQueueSize
  | _ => True

theorem lossless_boot (buf : RxBuf) (aux : Option (List UInt8)) : (World.boot m10 buf aux).Lossless := .nil

theorem lossless_step {w' : World} {l : Label} (hw : w.Lossless) (hl : RoomFor w l)
    (hs : Step m10 snprintf gBleAttributes w l w') : w'.Lossless := by
  unfold World.Lossless at hw ⊢
  cases hs with
  | uart l u hl' hs => rwa [dispatched_step hl' hs]
  | iterate parse hpc hlen =>
    rw [Framer.World.afterIteration, ubxFrames_append]
    rcases iterate_frames parse w.uart.buf with ⟨hf, hm⟩ | ⟨f, m, hf, hm, hcarries⟩
    · rw [hf, List.append_nil, hm]
      exact hw
    · have hroom : w.telemetry.queue.length < telparserQueueSize := by
        cases hd : (w.uart.buf.iterate parse.accept).dispatch with
        | none => rw [hd] at hf; cases hf
        | some msg =>
          cases msg with
          | nmea b => rw [hd] at hf; cases hf
          | ubx b => exact hl b hd
      rw [hf, hm, enqueue, if_pos hroom, World.queued, ← List.append_assoc w.taken.toList, ← List.append_assoc]
      exact List.rel_append hw (.cons hcarries .nil)
  | receive m rest hidle hset hq => simpa [World.queued, hidle, hq] using hw
  | handle m setBase setPrecision ht => simpa [World.queued, ht] using hw
  | link l link hl hs => exact hw
  | signal task hset => exact hw
  | wake task hidle hbit hwoken => exact hw
  | copy task hidle hwoken => exact hw
  | waitFails task hidle => exact hw
  | send task n ok hn => exact hw

/-- A frame that finds no room is lost for good. -/
theorem lossy_step {w' : World} {l : Label} (hw : w.Lossless) (hl : ¬ RoomFor w l)
    (hs : Step m10 snprintf gBleAttributes w l w') : ¬ w'.Lossless := by
  cases hs with
  | iterate parse hpc hlen =>
    simp only [RoomFor, not_forall] at hl
    obtain ⟨f, hf, hroom⟩ := hl
    intro h
    have hlen := h.length_eq
    obtain ⟨m, hm⟩ := Option.isSome_iff_exists.1 (iterate_accepted hf)
    rw [Framer.World.afterIteration, ubxFrames_append, hf, ubxMessage, hm, enqueue, if_neg hroom] at hlen
    have hbefore := hw.length_eq
    simp only [World.queued, List.length_append, Option.toList_some, ubxFrames, List.filterMap_cons,
      List.filterMap_nil, List.length_cons, List.length_nil] at hlen hbefore
    omega
  | uart l u hl' hs => exact absurd trivial hl
  | receive m rest hidle hset hq => exact absurd trivial hl
  | handle m setBase setPrecision ht => exact absurd trivial hl
  | link l link hl' hs => exact absurd trivial hl
  | signal task hset => exact absurd trivial hl
  | wake task hidle hbit hwoken => exact absurd trivial hl
  | copy task hidle hwoken => exact absurd trivial hl
  | waitFails task hidle => exact absurd trivial hl
  | send task n ok hn => exact absurd trivial hl

/-- **No frame is lost** between the framer and the telemetry in exactly the runs in which each frame that is handed on
finds room in the queue. -/
theorem lossless_iff (h : Run (Step m10 snprintf gBleAttributes) (.boot m10 buf aux) tr w) :
    (∀ x ∈ Run.states tr w, x.Lossless) ↔ ∀ p ∈ tr, RoomFor p.1 p.2 :=
  h.exact_states (lossless_boot buf aux) (fun _ _ _ hw hl hs => lossless_step hw hl hs) (fun _ hw => hw)
    fun _ _ _ hw hl hs => lossy_step hw hl hs

theorem lossless_iff_pvt : ∃ tr w, Run (Step someCodes someText someHandles) (.boot someCodes emptyBuf none) tr w ∧
    w.handled = [⟨pvtMessage, true, true⟩] ∧
    ((∀ x ∈ Run.states tr w, x.Lossless) ↔ ∀ p ∈ tr, RoomFor p.1 p.2) := by
  obtain ⟨tr, w, hr, -, hhandled, -⟩ := pvt_run
  exact ⟨tr, w, hr, hhandled, lossless_iff hr⟩

end TrackIt.System
