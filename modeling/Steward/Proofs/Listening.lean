import Steward.Machine.Launch
import Steward.Proofs.LineCapture

/-!
# Listening to a server

Three tasks listen to a server over HTTP: one reads each output stream, and one waits for the process and
tells its exit when both readers are through. All of them speak into one channel. `Launch.heed` is what one
of them does next, and nothing is said about whose turn it is or how much a reader gets at once.

`Launch.Told` says what is in the channel then, apart from the order in which the two streams were heard:
the lines of each stream, and the exit behind all of them.
-/

set_option autoImplicit false

namespace Steward

open Text.Utf8 (Bytes encode)

/-- One of the two output streams. -/
inductive Outlet where
  | stdout
  | stderr
  deriving Repr, DecidableEq

namespace Outlet

def event : Outlet → String → ChildEvent
  | .stdout => .stdout
  | .stderr => .stderr

def line? : Outlet → ChildEvent → Option String
  | .stdout, .stdout line => some line
  | .stderr, .stderr line => some line
  | _, _ => none

theorem line?_event (o : Outlet) (text : String) : o.line? (o.event text) = some text := by
  cases o <;> rfl

theorem line?_event_ne {o o' : Outlet} (h : o' ≠ o) (text : String) : o'.line? (o.event text) = none := by
  cases o <;> cases o' <;> first | rfl | exact absurd rfl h

theorem line?_exited (o : Outlet) (exit : Exit) : o.line? (.exited exit) = none := by
  cases o <;> rfl

theorem line?_error (o : Outlet) (reason : String) : o.line? (.error reason) = none := by
  cases o <;> rfl

/-- What the reader of a stream can tell. -/
def IsOwn (o : Outlet) (e : ChildEvent) : Prop := (∃ text, e = o.event text) ∨ ∃ reason, e = .error reason

theorem IsOwn.line?_ne {o o' : Outlet} {e : ChildEvent} (h : o.IsOwn e) (hne : o' ≠ o) :
    o'.line? e = none := by
  obtain ⟨text, rfl⟩ | ⟨reason, rfl⟩ := h
  · exact line?_event_ne hne text
  · exact o'.line?_error reason

theorem not_isOwn_exited (o : Outlet) (exit : Exit) : ¬ o.IsOwn (.exited exit) := by
  rintro (⟨text, he⟩ | ⟨reason, he⟩)
  · cases o <;> cases he
  · cases he

end Outlet

/-! ## Events of a stream -/

namespace Capture

variable {o : Outlet} {e : ChildEvent}

theorem mem_tell {ls : List Text.Line} (h : e ∈ (tell true o.event ls).1) : o.IsOwn e := by
  induction ls with
  | nil => cases h
  | cons l ls ih =>
    cases hl : Text.Utf8.decode l.whole with
    | error fault =>
      rw [tell_cons_fault hl, List.mem_singleton] at h
      exact .inr ⟨_, h⟩
    | ok cs =>
      by_cases hcs : Text.trimEnd cs = []
      · rw [tell_cons_blank hl hcs] at h
        exact ih h
      · rw [tell_cons_text hl hcs] at h
        rcases List.mem_cons.1 h with rfl | h
        · exact .inl ⟨_, rfl⟩
        · exact ih h

theorem mem_feed {c : Capture} {chunk : Bytes} (h : e ∈ (c.feed true o.event chunk).1) :
    o.IsOwn e := by
  unfold feed at h
  split at h
  · cases h
  · exact mem_tell h

theorem mem_close {c : Capture} (h : e ∈ (c.close true o.event).1) : o.IsOwn e := by
  unfold close at h
  split at h
  · cases h
  · exact mem_tell h

end Capture

/-! ## The tasks -/

namespace Launch

def stream (l : Launch) : Outlet → Option Stream
  | .stdout => l.stdout
  | .stderr => l.stderr

def setCapture (l : Launch) (o : Outlet) (c : Capture) : Launch :=
  match o with
  | .stdout => { l with stdout := l.stdout.map ({ · with capture := c }) }
  | .stderr => { l with stderr := l.stderr.map ({ · with capture := c }) }

/-- The capture of a stream, as long as it is read. -/
def reader? (l : Launch) (o : Outlet) : Option Capture :=
  ((l.stream o).map (·.capture)).filter (·.reading)

/-- What one of the tasks does that listen to a server. -/
inductive Heed where
  | chunk (o : Outlet) (bytes : Bytes)
  | ended (o : Outlet)
  /-- the task that waits has a look at the process -/
  | waited (statusLost : Bool)
  /-- it has a look at the readers -/
  | joined
  deriving Repr, DecidableEq

/-- The bytes of a stream that are taken. -/
def Heed.bytes (o : Outlet) : Heed → Bytes
  | .chunk o' bytes => if o' = o then bytes else []
  | .ended _ => []
  | .waited _ => []
  | .joined => []

/-- What is told then, and the server behind it; `none` if the reader is through. -/
def heed (m : Machine) (l : Launch) : Heed → Option (List ChildEvent × Launch)
  | .chunk o bytes => (l.reader? o).map fun c =>
    ((c.feed true o.event bytes).1, l.setCapture o (c.feed true o.event bytes).2)
  | .ended o => (l.reader? o).map fun c =>
    ((c.close true o.event).1, l.setCapture o (c.close true o.event).2)
  | .waited statusLost => some (learnExit m l statusLost)
  | .joined => some l.tellExit

variable {l l' : Launch} {m : Machine} {o : Outlet}

theorem reader?_eq_some {c : Capture} :
    l.reader? o = some c ↔ (∃ st, l.stream o = some st ∧ st.capture = c) ∧ c.reading = true := by
  simp [reader?, Option.filter_eq_some_iff]

theorem reader?_eq_none : l.reader? o = none ↔ isReading (l.stream o) = false := by
  cases h : l.stream o <;> simp [reader?, isReading, h]

/-- Everything that a task can do. -/
inductive Heeded (l : Launch) : Heed → List ChildEvent → Launch → Prop where
  | chunk (o : Outlet) (c : Capture) (bytes : Bytes) (reads : l.reader? o = some c) :
      Heeded l (.chunk o bytes) (c.feed true o.event bytes).1
        (l.setCapture o (c.feed true o.event bytes).2)
  | ended (o : Outlet) (c : Capture) (reads : l.reader? o = some c) :
      Heeded l (.ended o) (c.close true o.event).1 (l.setCapture o (c.close true o.event).2)
  | learnt (statusLost : Bool) (exit : Exit) (events : List ChildEvent) (unknown : l.exit = none)
      (errors : ∀ e ∈ events, ∃ reason, e = .error reason) :
      Heeded l (.waited statusLost) events { l with exit := some exit }
  | told (exit : Exit) (known : l.exit = some exit) (untold : l.told = false)
      (through : ∀ o, l.reader? o = none) : Heeded l .joined [.exited exit] { l with told := true }
  | idle (t : Heed) (silent : ∀ o, t.bytes o = []) : Heeded l t [] l

theorem learnExit_heeded (m : Machine) (l : Launch) (statusLost : Bool) :
    Heeded l (.waited statusLost) (learnExit m l statusLost).1 (learnExit m l statusLost).2 := by
  unfold learnExit
  split
  · rename_i exit hnone hends
    split
    · exact .learnt statusLost {} _ hnone fun e he => ⟨_, List.mem_singleton.1 he⟩
    · exact .learnt statusLost exit [] hnone nofun
  · exact .idle _ fun _ => rfl

theorem tellExit_heeded (l : Launch) : Heeded l .joined l.tellExit.1 l.tellExit.2 := by
  unfold tellExit
  split
  · rename_i exit hexit
    split
    · exact .idle _ fun _ => rfl
    · rename_i hwait
      simp only [Bool.or_eq_true, not_or, Bool.not_eq_true] at hwait
      refine .told exit hexit hwait.1.1 fun o => reader?_eq_none.2 ?_
      cases o with
      | stdout => exact hwait.1.2
      | stderr => exact hwait.2
  · exact .idle _ fun _ => rfl

theorem heed_cases {t : Heed} {events : List ChildEvent} (h : l.heed m t = some (events, l')) :
    Heeded l t events l' := by
  cases t with
  | chunk o bytes =>
    obtain ⟨c, hc, heq⟩ := Option.map_eq_some_iff.1 h
    cases heq
    exact .chunk o c bytes hc
  | ended o =>
    obtain ⟨c, hc, heq⟩ := Option.map_eq_some_iff.1 h
    cases heq
    exact .ended o c hc
  | waited statusLost =>
    have heeded := learnExit_heeded m l statusLost
    rwa [Option.some.inj h] at heeded
  | joined =>
    have heeded := tellExit_heeded l
    rwa [Option.some.inj h] at heeded

/-! ## What the channel holds -/

@[simp] theorem setCapture_exit (c : Capture) : (l.setCapture o c).exit = l.exit := by
  cases o <;> rfl

@[simp] theorem setCapture_told (c : Capture) : (l.setCapture o c).told = l.told := by
  cases o <;> rfl

@[simp] theorem setCapture_transport (c : Capture) : (l.setCapture o c).transport = l.transport := by
  cases o <;> rfl

theorem stream_setCapture (c : Capture) (o' : Outlet) :
    (l.setCapture o c).stream o' =
      if o' = o then (l.stream o).map ({ · with capture := c }) else l.stream o' := by
  cases o <;> cases o' <;> rfl

/-- The tasks have taken the bytes `read` and told `sent`. -/
structure Told (l : Launch) (read : Outlet → Bytes) (sent : List ChildEvent) : Prop where
  piped : l.transport = .http → ∀ o, ∃ st, l.stream o = some st
  captured : ∀ o st, l.stream o = some st → ∃ told, st.capture.Tells o.event (read o) told ∧
    sent.filterMap o.line? = told.filterMap o.line?
  untold : l.told = false → ∀ exit, .exited exit ∉ sent
  told : l.told = true → (∀ o, l.reader? o = none) ∧ ∃ front exit, l.exit = some exit ∧
    sent = front ++ [.exited exit] ∧ ∀ e, .exited e ∉ front

theorem start_cases {v : Variables} {spec : LaunchSpec} {m' : Machine}
    (h : start m v spec = .ok (l, m')) :
    l.told = false ∧ (l.transport = .http → ∀ o, ∃ st, l.stream o = some st) ∧
      ∀ o st, l.stream o = some st → st.capture = {} := by
  unfold start at h
  split at h
  · simp only [bind, Except.bind] at h
    split at h
    · cases h
    · cases h
      refine ⟨rfl, fun _ o => ?_, fun o st hst => ?_⟩
      · cases o <;> exact ⟨_, rfl⟩
      · cases o <;> cases hst <;> rfl
  · simp only [bind, Except.bind] at h
    split at h
    · cases h
    · cases h
      refine ⟨rfl, nofun, fun o st hst => ?_⟩
      cases o <;> cases hst

namespace Told

variable {read more : Outlet → Bytes} {sent events : List ChildEvent}

theorem start {v : Variables} {spec : LaunchSpec} {m' : Machine}
    (h : Launch.start m v spec = .ok (l, m')) : l.Told (fun _ => []) [] := by
  obtain ⟨htold, hpiped, hfresh⟩ := start_cases h
  refine { piped := hpiped, captured := fun o st hst => ?_, untold := fun _ => nofun, told := ?_ }
  · rw [hfresh o st hst]
    exact ⟨[], .start, rfl⟩
  · intro h
    rw [htold] at h
    cases h

/-- The exit is not told while somebody reads. -/
theorem untold_of_reader (h : l.Told read sent) {c : Capture} (hr : l.reader? o = some c) :
    l.told = false := by
  cases htold : l.told with
  | false => rfl
  | true =>
    have hnone := (h.told htold).1 o
    rw [hr] at hnone
    cases hnone

/-- Nor is it told while it is not known. -/
theorem untold_of_unknown (h : l.Told read sent) (hexit : l.exit = none) : l.told = false := by
  cases htold : l.told with
  | false => rfl
  | true =>
    obtain ⟨-, front, exit, hknown, -⟩ := h.told htold
    rw [hexit] at hknown
    cases hknown

/-- Something is told that is no line of a stream. -/
theorem captured_append (h : l.Told read sent) (hstream : ∀ o, l'.stream o = l.stream o)
    (hevents : ∀ e ∈ events, ∀ o : Outlet, o.line? e = none) (o : Outlet) (st : Stream)
    (hst : l'.stream o = some st) : ∃ told, st.capture.Tells o.event (read o) told ∧
      (sent ++ events).filterMap o.line? = told.filterMap o.line? := by
  rw [hstream] at hst
  obtain ⟨told, ht, hlines⟩ := h.captured o st hst
  have hnone : events.filterMap o.line? = [] :=
    List.filterMap_eq_nil_iff.2 fun e he => hevents e he o
  refine ⟨told, ht, ?_⟩
  rw [List.filterMap_append, hnone, List.append_nil, hlines]

/-- One of the readers goes on, and the other is not concerned. -/
theorem reads (h : l.Told read sent) {c c' : Capture} (hr : l.reader? o = some c)
    (hmore : ∀ o', o' ≠ o → more o' = [])
    (htells : ∀ told, c.Tells o.event (read o) told →
      c'.Tells o.event (read o ++ more o) (told ++ events))
    (hevents : ∀ e ∈ events, o.IsOwn e) :
    (l.setCapture o c').Told (fun o' => read o' ++ more o') (sent ++ events) := by
  obtain ⟨⟨st, hst, rfl⟩, hreading⟩ := reader?_eq_some.1 hr
  refine { piped := ?_, captured := ?_, untold := ?_, told := ?_ }
  · intro hhttp o'
    rw [setCapture_transport] at hhttp
    obtain ⟨st', hst'⟩ := h.piped hhttp o'
    rw [stream_setCapture]
    split
    · exact ⟨_, congrArg (Option.map _) hst⟩
    · exact ⟨st', hst'⟩
  · intro o' st' hst'
    rw [stream_setCapture] at hst'
    split at hst'
    · rename_i heq
      subst heq
      rw [hst] at hst'
      cases hst'
      obtain ⟨told, ht, hlines⟩ := h.captured o' st hst
      refine ⟨told ++ events, htells told ht, ?_⟩
      rw [List.filterMap_append, List.filterMap_append, hlines]
    · rename_i hne
      obtain ⟨told, ht, hlines⟩ := h.captured o' st' hst'
      have hnone : events.filterMap o'.line? = [] :=
        List.filterMap_eq_nil_iff.2 fun e he => (hevents e he).line?_ne hne
      refine ⟨told, ?_, ?_⟩
      · rw [hmore o' hne, List.append_nil]
        exact ht
      · rw [List.filterMap_append, hnone, List.append_nil, hlines]
  · intro htold exit hmem
    rw [setCapture_told] at htold
    rcases List.mem_append.1 hmem with hmem | hmem
    · exact h.untold htold exit hmem
    · exact o.not_isOwn_exited exit (hevents _ hmem)
  · rw [setCapture_told, h.untold_of_reader hr]
    nofun

/-- **What a task does keeps the channel as it should be.** -/
theorem heed (h : l.Told read sent) {t : Heed} (ht : Heeded l t events l') :
    l'.Told (fun o => read o ++ t.bytes o) (sent ++ events) := by
  cases ht with
  | chunk o c bytes reads =>
    obtain ⟨-, hreading⟩ := reader?_eq_some.1 reads
    refine h.reads reads (fun o' hne => if_neg (Ne.symm hne)) (fun told ht => ?_) fun e he =>
      Capture.mem_feed he
    rw [Heed.bytes, if_pos rfl]
    exact ht.feed hreading bytes
  | ended o c reads =>
    obtain ⟨-, hreading⟩ := reader?_eq_some.1 reads
    refine h.reads reads (fun _ _ => rfl) (fun told ht => ?_) fun e he => Capture.mem_close he
    rw [Heed.bytes, List.append_nil]
    exact (ht.close hreading).1
  | learnt statusLost exit _ unknown errors =>
    simp only [Heed.bytes, List.append_nil]
    refine { piped := ?_, captured := ?_, untold := ?_, told := ?_ }
    · intro hhttp o
      obtain ⟨st, hst⟩ := h.piped hhttp o
      exact ⟨st, by cases o <;> exact hst⟩
    · refine h.captured_append (fun o => by cases o <;> rfl) fun e he o => ?_
      obtain ⟨reason, rfl⟩ := errors e he
      exact o.line?_error reason
    · intro htold exit hmem
      rcases List.mem_append.1 hmem with hmem | hmem
      · exact h.untold htold exit hmem
      · obtain ⟨reason, he⟩ := errors _ hmem
        cases he
    · rw [h.untold_of_unknown unknown]
      nofun
  | told exit known untold through =>
    simp only [Heed.bytes, List.append_nil]
    refine { piped := ?_, captured := ?_, untold := nofun, told := fun _ => ?_ }
    · intro hhttp o
      obtain ⟨st, hst⟩ := h.piped hhttp o
      exact ⟨st, by cases o <;> exact hst⟩
    · refine h.captured_append (fun o => by cases o <;> rfl) fun e he o => ?_
      rw [List.mem_singleton.1 he]
      exact o.line?_exited exit
    · refine ⟨fun o => ?_, sent, exit, known, rfl, h.untold untold⟩
      rw [← through o]
      cases o <;> rfl
  | idle _ silent =>
    simp only [silent, List.append_nil]
    exact h

/-- The lines of a text that was read to its end. -/
theorem lines_of_ended (h : l.Told read sent) {st : Stream} (hst : l.stream o = some st)
    (hr : l.reader? o = none) {cs : List Char} (hread : read o = encode cs) :
    sent.filterMap o.line? = Capture.spoken cs := by
  obtain ⟨told, ht, hlines⟩ := h.captured o st hst
  have hended : st.capture.reading = false := by
    have hreading := reader?_eq_none.1 hr
    rwa [isReading, hst] at hreading
  rw [hlines, ht.eq_of_ended hended, hread, Capture.tell_encode, List.filterMap_map]
  have hsome : o.line? ∘ o.event = some := funext o.line?_event
  rw [hsome, List.filterMap_some]

/-- Until the process has ended and both readers are through there is no exit in the channel. -/
theorem not_exited (h : l.Told read sent) (hwait : l.exit = none ∨ ∃ o, l.reader? o ≠ none) (exit : Exit) :
    .exited exit ∉ sent := by
  rcases hwait with hnone | ⟨o, ho⟩
  · exact h.untold (h.untold_of_unknown hnone) exit
  · obtain ⟨c, hr⟩ := Option.ne_none_iff_exists'.1 ho
    exact h.untold (h.untold_of_reader hr) exit

/-- Then there is one exit, behind all else, as soon as the task that waits has had its turn. -/
theorem exited (h : l.Told read sent) {exit : Exit} (hexit : l.exit = some exit)
    (hthrough : ∀ o, l.reader? o = none) :
    ∃ front, sent ++ l.tellExit.1 = front ++ [.exited exit] ∧ ∀ e, .exited e ∉ front := by
  have hout : isReading l.stdout = false := reader?_eq_none.1 (hthrough .stdout)
  have herr : isReading l.stderr = false := reader?_eq_none.1 (hthrough .stderr)
  cases htold : l.told with
  | false =>
    refine ⟨sent, ?_, h.untold htold⟩
    simp [tellExit, hexit, htold, hout, herr]
  | true =>
    obtain ⟨-, front, e, he, hsent, hfront⟩ := h.told htold
    obtain rfl : exit = e := Option.some.inj (hexit.symm.trans he)
    refine ⟨front, ?_, hfront⟩
    simp [tellExit, hexit, htold, hsent]

end Told

/-! ## Polling -/

/-- What the tasks can do one after the other. -/
inductive Heeds (m : Machine) : Launch → List ChildEvent → Launch → Prop where
  | nothing (l : Launch) : Heeds m l [] l
  | next {l l₁ l₂ : Launch} {events more : List ChildEvent} (t : Heed)
      (first : l.heed m t = some (events, l₁)) (rest : Heeds m l₁ more l₂) :
      Heeds m l (events ++ more) l₂

theorem Heeds.single {events : List ChildEvent} (t : Heed) (h : l.heed m t = some (events, l')) :
    Heeds m l events l' := by
  have hnext := Heeds.next t h (.nothing l')
  rwa [List.append_nil] at hnext

theorem Heeds.trans {l₁ l₂ : Launch} {events more : List ChildEvent} (h : Heeds m l events l₁)
    (h' : Heeds m l₁ more l₂) : Heeds m l (events ++ more) l₂ := by
  induction h with
  | nothing l => exact h'
  | next t first rest ih =>
    rw [List.append_assoc]
    exact .next t first (ih h')

def setStream (l : Launch) (o : Outlet) (st : Option Stream) : Launch :=
  match o with
  | .stdout => { l with stdout := st }
  | .stderr => { l with stderr := st }

theorem setStream_self (o : Outlet) : l.setStream o (l.stream o) = l := by
  cases o <;> rfl

theorem setCapture_eq {st : Stream} (hst : l.stream o = some st) (c : Capture) :
    l.setCapture o c = l.setStream o (some { st with capture := c }) := by
  cases o <;> simp only [stream] at hst <;> simp [setCapture, setStream, hst]

theorem heeds_poll_stream {st : Stream} (hst : l.stream o = some st) (m m₀ : Machine) :
    Heeds m₀ l (st.poll m true o.event).1 (l.setStream o (some (st.poll m true o.event).2.1)) := by
  cases hr : st.capture.reading with
  | false =>
    have hpoll : st.poll m true o.event = ([], st, m) := by simp [Stream.poll, hr]
    rw [hpoll, ← hst, setStream_self]
    exact .nothing l
  | true =>
    have hreader : l.reader? o = some st.capture := reader?_eq_some.2 ⟨⟨st, hst, rfl⟩, hr⟩
    obtain ⟨fed, hfed⟩ : ∃ fed, st.capture.feed true o.event (m.drain st.pipe).1 = fed := ⟨_, rfl⟩
    have hchunk : l.heed m₀ (.chunk o (m.drain st.pipe).1) =
        some (fed.1, l.setStream o (some { st with capture := fed.2 })) := by
      rw [heed, hreader, Option.map_some, hfed, setCapture_eq hst]
    -- the reader comes to the end of the stream in the same poll if nobody writes any more
    cases hw : (m.drain st.pipe).2.hasWriter st.pipe with
    | true =>
      have hpoll : (st.poll m true o.event).1 = fed.1 ∧
          (st.poll m true o.event).2.1 = { st with capture := fed.2 } := by
        simp [Stream.poll, hr, hfed, hw]
      rw [hpoll.1, hpoll.2]
      exact .single _ hchunk
    | false =>
      have hpoll : (st.poll m true o.event).1 = fed.1 ++ (fed.2.close true o.event).1 ∧
          (st.poll m true o.event).2.1 = { st with capture := (fed.2.close true o.event).2 } := by
        simp [Stream.poll, hr, hfed, hw]
      rw [hpoll.1, hpoll.2]
      refine .next _ hchunk ?_
      have hst' : (l.setStream o (some { st with capture := fed.2 })).stream o =
          some { st with capture := fed.2 } := by
        cases o <;> rfl
      cases hr' : fed.2.reading with
      | false =>
        have hclose : fed.2.close true o.event = ([], fed.2) := by simp [Capture.close, hr']
        rw [hclose]
        exact .nothing _
      | true =>
        have hreader' := reader?_eq_some.2 ⟨⟨_, hst', rfl⟩, hr'⟩
        refine .single (.ended o) ?_
        rw [heed, hreader', Option.map_some, setCapture_eq hst']
        cases o <;> rfl

/-- **A poll is one of the orders in which the tasks may take their turns.** -/
theorem heeds_poll (l : Launch) (m : Machine) (statusLost : Bool) :
    Heeds (l.poll m true statusLost).2.2 l (l.poll m true statusLost).1 (l.poll m true statusLost).2.1 := by
  have read : ∀ (l : Launch) (o : Outlet) (m m₀ : Machine),
      Heeds m₀ l (pollStream (l.stream o) m true o.event).1
        (l.setStream o (pollStream (l.stream o) m true o.event).2.1) := by
    intro l o m m₀
    cases hst : l.stream o with
    | none =>
      rw [pollStream, ← hst, setStream_self]
      exact .nothing l
    | some st => exact heeds_poll_stream hst m m₀
  have hout := read l .stdout m (l.poll m true statusLost).2.2
  have herr := read (l.setStream .stdout (pollStream l.stdout m true .stdout).2.1) .stderr
    (pollStream l.stdout m true .stdout).2.2 (l.poll m true statusLost).2.2
  refine ((hout.trans herr).trans (.single (.waited statusLost) rfl)).trans (.single .joined rfl)

end Launch

end Steward
