/-
# `Matinee.Proofs.WatchList.RecordedDate` — a recorded date is the date from then on

The text of a date is written where there is none, and no operation on any list ever
replaces it, so each call about a date makes its promise by itself (`DateCall.Promise`):
a call that says it has recorded a date has left its text in the store, and a call that
asks for the date answers with what is read from the text in the store.  What is left is
that the text of an instant reads back as that instant, cut to whole milliseconds.

The years from 0 to 9999 are the ones that are written with four digits.  A leap second is
the last one of its minute; what the type of instants admits besides, a second with more
nanoseconds than it has in the midst of a minute, reads back as the same millisecond,
counted from the second behind it.
-/
import Matinee.Proofs.Store.Promises
import Matinee.Proofs.WatchList.Namespaces

namespace Matinee.Instant

theorem shown_of_whole {i : Instant} (hleap : i.LeapInPlace) (hwhole : i.nano % 1000000 = 0) :
    i.shown = i := by
  rw [shown_of_leapInPlace hleap, toMillis, mk.injEq]
  refine ⟨rfl, rfl, ?_⟩
  omega

theorem eq_of_millisText {d e : Instant} (hd : 0 ≤ d.date.year ∧ d.date.year ≤ 9999)
    (he : 0 ≤ e.date.year ∧ e.date.year ≤ 9999) (h : d.millisText = e.millisText) :
    d.millis = e.millis ∧ (d.LeapInPlace → e.LeapInPlace → d.nano % 1000000 = 0 →
      e.nano % 1000000 = 0 → d = e) := by
  have hshown : d.shown = e.shown := by
    have hread := readRfc3339_millisText hd
    rw [h, readRfc3339_millisText he] at hread
    exact (Option.some.inj hread).symm
  refine ⟨?_, ?_⟩
  · rw [← (isCutOf_shown d).millis, hshown, (isCutOf_shown e).millis]
  · intro hdleap heleap hdwhole hewhole
    rw [← shown_of_whole hdleap hdwhole, hshown, shown_of_whole heleap hewhole]

end Matinee.Instant

namespace Matinee.WatchList

open Matinee.Store (Call Contents Item Lasting Program Stays System)

/-- A key under which the date of some account is kept. -/
def IsDateKey (key : String) : Prop := ∃ space, key = Item.accountDate.key space

theorem isDateKey (w : WatchList) : IsDateKey w.dateKey := ⟨w.space, rfl⟩

theorem not_isDateKey (w : WatchList) : ¬ IsDateKey w.listKey := by
  rintro ⟨space, hkey⟩
  exact absurd (Item.key_inj hkey).1 nofun

namespace DateCall

/-- What a call promises about its reply and the store. -/
def Promise (key : String) : DateCall → Contents → Except Failure DateReply → Prop
  | .created now, s, r => ∃ t, s[key]? = some t ∧ r = .ok (dated now (some t))
  | .record date, s, r =>
    ∃ b, r = .ok (.recorded b) ∧ (b = true → s[key]? = some (record date).text)

theorem lasting_promise {key : String} (hkey : IsDateKey key) (c : DateCall) :
    Lasting IsDateKey (c.Promise key) := by
  intro s t r hstays h
  cases c with
  | created now =>
      obtain ⟨text, htext, hr⟩ := h
      exact ⟨text, hstays key hkey text htext, hr⟩
  | record date =>
      obtain ⟨b, hr, hb⟩ := h
      exact ⟨b, hr, fun hwrote => hstays key hkey _ (hb hwrote)⟩

theorem mem_answer_setIfAbsent (key value : String) (s : Contents) :
    key ∈ (Store.answer (.setIfAbsent key value) s).2 := by
  rw [Store.answer]
  split
  · rename_i hkey
    exact hkey
  · exact Std.ExtHashMap.mem_insert_self

theorem ensures_readBack {key : String} (hkey : IsDateKey key) (now : Instant) {s : Contents}
    (hmem : key ∈ s) : (readBack key now).Ensures IsDateKey ((created now).Promise key) s := by
  refine ⟨trivial, ?_⟩
  intro t hstays
  obtain ⟨text, htext⟩ := mem_iff_exists_text.mp hmem
  have hfound : t[key]? = some text := hstays key hkey text htext
  refine ⟨text, hfound, ?_⟩
  show Except.ok (dated now t[key]?) = _
  rw [hfound]

theorem ensures_put {key : String} (hkey : IsDateKey key) (now : Instant) (s : Contents) :
    (put key now).Ensures IsDateKey ((created now).Promise key) s :=
  ⟨trivial, fun t _ => ensures_readBack hkey now (mem_answer_setIfAbsent key _ t)⟩

theorem ensures_steps {key : String} (hkey : IsDateKey key) (c : DateCall) (s : Contents) :
    (c.steps key).Ensures IsDateKey (c.Promise key) s := by
  cases c with
  | created now =>
      refine ⟨trivial, ?_⟩
      intro t _
      have hanswer : Store.answer (.get key) t = (t[key]?, t) := rfl
      rw [hanswer]
      cases hfound : t[key]? with
      | none => exact ensures_put hkey now t
      | some text => exact ⟨text, hfound, rfl⟩
  | record date =>
      refine ⟨trivial, ?_⟩
      intro t _
      by_cases hmem : key ∈ t
      · rw [Store.answer, if_pos hmem]
        exact ⟨false, rfl, fun h => absurd h Bool.false_ne_true⟩
      · rw [Store.answer, if_neg hmem]
        exact ⟨true, rfl, fun _ => Std.ExtHashMap.getElem?_insert_self⟩

theorem ensures_program (w : WatchList) (c : DateCall) (s : Contents) :
    (c.program w).Ensures IsDateKey (c.Promise w.dateKey) s := by
  rw [program_eq]
  exact ensures_steps (isDateKey w) c s

/-! ### One call alone -/

theorem alone_record {w : WatchList} {s : Contents} (hkey : w.dateKey ∉ s) (d : Instant) :
    ((record d).program w).alone s =
      (.ok (.recorded true), s.insert w.dateKey (record d).text) := by
  rw [program_eq, steps, Program.alone_call, Store.answer, if_neg hkey]
  rfl

theorem alone_created {w : WatchList} {s : Contents} {d e : Instant}
    (htext : s[w.dateKey]? = some (record d).text)
    (hread : Instant.readRfc3339 d.millisText = some e) (now : Instant) :
    ((created now).program w).alone s = (.ok (.date e), s) := by
  have htold : dated now (some (record d).text) = .date e := by
    rw [dated, Option.bind_some, text, String.toList_ofList, instant, hread, Option.getD_some]
  rw [program_eq, steps, Program.alone_call, Store.answer, htext]
  dsimp only
  rw [Program.alone_done, htold]

end DateCall

theorem Operation.ensures_program (w : WatchList) (o : Operation) (s : Contents) :
    (o.program w).Ensures IsDateKey (fun _ _ => True) s := by
  have hrest : ∀ ms t, (o.rest w ms).Ensures IsDateKey (fun _ _ => True) t := by
    intro ms t
    rw [rest]
    split
    · exact ⟨not_isDateKey w, fun _ _ => trivial⟩
    · trivial
  rw [program_eq]
  refine ⟨trivial, ?_⟩
  intro t _
  rw [next]
  split
  · exact hrest _ _
  · split
    · exact hrest _ _
    · trivial

namespace Job

/-- What an operation promises; those on the saved movies promise nothing. -/
def Promise (w : WatchList) : Job → Contents → Except Failure JobReply → Prop
  | .date c, s, reply => ∃ r, reply = Except.map JobReply.date r ∧ c.Promise w.dateKey s r
  | .list _, _, _ => True

theorem lasting_promise (w : WatchList) (j : Job) : Lasting IsDateKey (j.Promise w) := by
  intro s t reply hstays h
  cases j with
  | list o => trivial
  | date c =>
      obtain ⟨r, hr, hpromise⟩ := h
      exact ⟨r, hr, DateCall.lasting_promise (isDateKey w) c s t r hstays hpromise⟩

theorem ensures_program (w : WatchList) (j : Job) (s : Contents) :
    (j.program w).Ensures IsDateKey (j.Promise w) s := by
  cases j with
  | list o => exact (Operation.ensures_program w o s).map
  | date c =>
      refine Program.Ensures.map ?_
      refine (DateCall.ensures_program w c s).post ?_
      intro t r h
      exact ⟨r, rfl, h⟩

/-- Operations side by side, behind a schedule. -/
def sideBySide (jobs : List (WatchList × Job)) (s : Contents) (schedule : List Nat) :
    System WatchList (Except Failure JobReply) :=
  System.run (tasks jobs) (System.start s) schedule

theorem promise_of_returned {jobs : List (WatchList × Job)} {s : Contents} {schedule : List Nat}
    {i : Nat} {w : WatchList} {j : Job} {reply : Except Failure JobReply}
    (hjob : jobs[i]? = some (w, j))
    (hreturned : (sideBySide jobs s schedule).phase i = .returned reply) :
    j.Promise w (sideBySide jobs s schedule).store reply := by
  let post : Nat → Contents → Except Failure JobReply → Prop := fun i s reply =>
    ∀ job, jobs[i]? = some job → job.2.Promise job.1 s reply
  have hpost : ∀ i, Lasting IsDateKey (post i) := by
    intro i s t reply hstays h job hjob
    exact lasting_promise job.1 job.2 s t reply hstays (h job hjob)
  have hpromised : System.Promised IsDateKey post (tasks jobs) (sideBySide jobs s schedule) := by
    refine System.promised_run hpost ?_ schedule
    intro i t htask
    rw [tasks, List.getElem?_map, Option.map_eq_some_iff] at htask
    obtain ⟨job, hjob, rfl⟩ := htask
    refine (ensures_program job.1 job.2 s).post ?_
    intro t reply h job' hjob'
    obtain rfl := Option.some.inj (hjob.symm.trans hjob')
    exact h
  have htask : (tasks jobs)[i]? = some ⟨j.guard w, j.program w⟩ := by
    rw [tasks, List.getElem?_map, hjob]
    rfl
  have hi := hpromised.task i _ htask
  rw [hreturned] at hi
  exact hi (w, j) hjob

theorem reply_created {jobs : List (WatchList × Job)} {s : Contents} {schedule : List Nat}
    {i j : Nat} {w v : WatchList} {d now : Instant} {reply : Except Failure JobReply}
    (hyear : 0 ≤ d.date.year ∧ d.date.year ≤ 9999)
    (hrecord : jobs[i]? = some (w, .date (.record d)))
    (hrecorded : (sideBySide jobs s schedule).phase i = .returned (.ok (.date (.recorded true))))
    (hcreated : jobs[j]? = some (v, .date (.created now))) (hkey : v.dateKey = w.dateKey)
    (hreturned : (sideBySide jobs s schedule).phase j = .returned reply) :
    reply = .ok (.date (.date d.shown)) := by
  have hwrote : (sideBySide jobs s schedule).store[w.dateKey]? = some (DateCall.record d).text := by
    obtain ⟨r, hr, b, rfl, hb⟩ := promise_of_returned hrecord hrecorded
    obtain rfl : true = b := DateReply.recorded.inj (JobReply.date.inj (Except.ok.inj hr))
    exact hb rfl
  obtain ⟨r, rfl, text, htext, rfl⟩ := promise_of_returned hcreated hreturned
  rw [hkey, hwrote] at htext
  have hread : Instant.readRfc3339 text.toList = some d.shown := by
    rw [← Option.some.inj htext, DateCall.text, String.toList_ofList]
    exact Instant.readRfc3339_millisText hyear
  show Except.ok (JobReply.date (.date ((Instant.readRfc3339 text.toList).getD now))) = _
  rw [hread]
  rfl

/-- A call about a date takes no lock, so it can go on until it returns. -/
theorem exists_reply_date {jobs : List (WatchList × Job)} {j : Nat} {v : WatchList} {c : DateCall}
    (hjob : jobs[j]? = some (v, .date c)) (s : Contents) (schedule : List Nat) :
    ∃ rest reply, (sideBySide jobs s (schedule ++ rest)).phase j = .returned reply := by
  have htask : (tasks jobs)[j]? = some ⟨none, (Job.date c).program v⟩ := by
    rw [tasks, List.getElem?_map, hjob]
    rfl
  obtain ⟨rest, reply, hrest⟩ :=
    System.exists_returned_of_guard htask rfl (sideBySide jobs s schedule)
  refine ⟨rest, reply, ?_⟩
  rw [sideBySide, System.run_append, ← sideBySide, hrest, Function.update_self]

/-- Once a date has been recorded, whoever asks for it can return, and is told what its text
shows. -/
theorem told_of_recorded {jobs : List (WatchList × Job)} {s : Contents} {schedule : List Nat}
    {i : Nat} {w : WatchList} {d : Instant} (hyear : 0 ≤ d.date.year ∧ d.date.year ≤ 9999)
    (hrecord : jobs[i]? = some (w, .date (.record d)))
    (hrecorded : (sideBySide jobs s schedule).phase i = .returned (.ok (.date (.recorded true))))
    (later : List Nat) {j : Nat} {v : WatchList} {now : Instant}
    (hcreated : jobs[j]? = some (v, .date (.created now))) (hkey : v.dateKey = w.dateKey) :
    (∀ reply, (sideBySide jobs s (schedule ++ later)).phase j = .returned reply →
      reply = .ok (.date (.date d.shown))) ∧
    ∃ rest, (sideBySide jobs s (schedule ++ later ++ rest)).phase j =
      .returned (.ok (.date (.date d.shown))) := by
  have hreply : ∀ more reply, (sideBySide jobs s (schedule ++ more)).phase j = .returned reply →
      reply = .ok (.date (.date d.shown)) := by
    intro more reply hreturned
    refine reply_created hyear hrecord ?_ hcreated hkey hreturned
    rw [sideBySide, System.run_append]
    exact System.phase_run_of_returned hrecorded more
  refine ⟨hreply later, ?_⟩
  obtain ⟨rest, reply, hreturned⟩ := exists_reply_date hcreated s (schedule ++ later)
  refine ⟨rest, ?_⟩
  rw [hreturned]
  rw [List.append_assoc] at hreturned
  rw [hreply (later ++ rest) reply hreturned]

/-- **A recorded date is the date from then on.**  Among any operations on any lists over
one store, however their calls interleave: once a call says that it has recorded an instant
of the years from 0 to 9999 as the date of an account, all who ask for this date can return,
and all are told the same, whatever others record.  They are told the instant cut to whole
milliseconds, unless it has a leap second that is not the last second of its minute; of
such an instant they are told the same millisecond, counted from the next second.  For so
the text of an instant reads back.  Instants with one text lie in one millisecond, and are
equal if they are whole milliseconds, with leap seconds in place. -/
theorem recorded_date_stands :
    (∀ (jobs : List (WatchList × Job)) (s : Contents) (schedule : List Nat) (i : Nat)
        (w : WatchList) (d : Instant),
      0 ≤ d.date.year ∧ d.date.year ≤ 9999 → jobs[i]? = some (w, .date (.record d)) →
      (sideBySide jobs s schedule).phase i = .returned (.ok (.date (.recorded true))) →
        ∃ d' : Instant, (d.LeapInPlace → d' = d.toMillis) ∧
          (∀ h : ¬ d.LeapInPlace, d' = d.carried h) ∧ d'.millis = d.millis ∧
          ∀ later j v now, jobs[j]? = some (v, .date (.created now)) → v.dateKey = w.dateKey →
            (∀ reply, (sideBySide jobs s (schedule ++ later)).phase j = .returned reply →
              reply = .ok (.date (.date d'))) ∧
            ∃ rest, (sideBySide jobs s (schedule ++ later ++ rest)).phase j =
              .returned (.ok (.date (.date d')))) ∧
    (∀ d : Instant, 0 ≤ d.date.year ∧ d.date.year ≤ 9999 →
      (d.LeapInPlace → Instant.readRfc3339 d.millisText = some d.toMillis) ∧
      ∀ h : ¬ d.LeapInPlace, Instant.readRfc3339 d.millisText = some (d.carried h)) ∧
    ∀ d e : Instant, 0 ≤ d.date.year ∧ d.date.year ≤ 9999 → 0 ≤ e.date.year ∧ e.date.year ≤ 9999 →
      d.millisText = e.millisText →
        d.millis = e.millis ∧ (d.LeapInPlace → e.LeapInPlace → d.nano % 1000000 = 0 →
          e.nano % 1000000 = 0 → d = e) := by
  refine ⟨?_, ?_, fun d e => Instant.eq_of_millisText⟩
  · intro jobs s schedule i w d hyear hrecord hrecorded
    refine ⟨d.shown, Instant.shown_of_leapInPlace, Instant.shown_of_not_leapInPlace,
      (Instant.isCutOf_shown d).millis, ?_⟩
    intro later j v now hcreated hkey
    exact told_of_recorded hyear hrecord hrecorded later hcreated hkey
  · intro d hyear
    have hread := Instant.readRfc3339_millisText hyear
    constructor
    · intro hleap
      rw [hread, Instant.shown_of_leapInPlace hleap]
    · intro hleap
      rw [hread, Instant.shown_of_not_leapInPlace hleap]

/-- A leap second, with a part below the millisecond. -/
def lateLeap : Instant := .ofLocal 736328 86399 ⟨1500999998, by decide⟩ 0

/-- The leap second is recorded while another date and a movie are on their way. -/
def rivals : List (WatchList × Job) :=
  [(⟨none⟩, .date (.record lateLeap)),
    (⟨some ""⟩, .date (.record (.ofLocal 0 0 ⟨1, by decide⟩ 0))),
    (⟨none⟩, .list (.add (.bare 949 "Heat (1995)" ["Crime"]))),
    (⟨some ""⟩, .date (.created (.ofLocal 736330 1 ⟨2, by decide⟩ 0)))]

/-- Whoever asks while the other one is about to write is told the leap second, cut. -/
theorem recorded_date_stands_leap :
    (sideBySide rivals ∅ [1, 2, 0, 0, 0]).phase 0 = .returned (.ok (.date (.recorded true))) ∧
      ∃ rest, (sideBySide rivals ∅ ([1, 2, 0, 0, 0] ++ [3, 1, 1, 2] ++ rest)).phase 3 =
        .returned (.ok (.date (.date ⟨736328, 86399, 1500000000, by decide, by decide⟩))) := by
  have hrecorded : (sideBySide rivals ∅ [1, 2, 0, 0, 0]).phase 0 =
      .returned (.ok (.date (.recorded true))) := by
    have hwrites : (Store.answer (.setIfAbsent (WatchList.dateKey ⟨none⟩)
        (DateCall.record lateLeap).text) ∅).1 = true := by
      rw [Store.answer, if_neg Std.ExtHashMap.not_mem_empty]
    show Store.Phase.returned (Except.ok (JobReply.date (DateReply.recorded (Store.answer
      (.setIfAbsent (WatchList.dateKey ⟨none⟩) (DateCall.record lateLeap).text) ∅).1))) = _
    rw [hwrites]
  obtain ⟨d', hexact, -, -, hasked⟩ := recorded_date_stands.1 rivals ∅ [1, 2, 0, 0, 0] 0 ⟨none⟩ _
    (by decide) rfl hrecorded
  obtain rfl := hexact (by decide)
  exact ⟨hrecorded, (hasked [3, 1, 1, 2] 3 ⟨some ""⟩ _ rfl rfl).2⟩

/-- A leap second in the midst of a minute, and the same millisecond of the next second. -/
def strangeLeap : Instant := ⟨736330, 4, 1333000000, by decide, by decide⟩

def nextSecond : Instant := ⟨736330, 5, 333000000, by decide, by decide⟩

/-- A leap second in the midst of a minute has its text in common with the next second, and
both are whole milliseconds: the one is recorded, and the other is read back.  Nor does a
recorded date stand if something else than the lists changes the text under its key. -/
theorem recorded_date_moves :
    let w : WatchList := ⟨none⟩
    let record (d : Instant) := ((DateCall.record d).program w).alone ∅
    let told (s : Contents) := (((DateCall.created lateLeap).program w).alone s).1
    strangeLeap.date.year = 2017 ∧ strangeLeap.toMillis = strangeLeap ∧
      nextSecond.toMillis = nextSecond ∧ nextSecond ≠ strangeLeap ∧
      nextSecond.millisText = strangeLeap.millisText ∧
      Instant.readRfc3339 strangeLeap.millisText = some nextSecond ∧
      (record strangeLeap).1 = .ok (.recorded true) ∧
      told (record strangeLeap).2 = .ok (.date nextSecond) ∧
      (record lateLeap).1 = .ok (.recorded true) ∧
      told (Store.answer (.set w.dateKey (DateCall.record nextSecond).text)
        (record lateLeap).2).2 = .ok (.date nextSecond) ∧ nextSecond ≠ lateLeap.toMillis := by
  intro w record told
  have hrecord (d : Instant) : record d =
      (.ok (.recorded true), (∅ : Contents).insert w.dateKey (DateCall.record d).text) :=
    DateCall.alone_record Std.ExtHashMap.not_mem_empty d
  have htold (s : Contents) (d : Instant)
      (hread : Instant.readRfc3339 d.millisText = some nextSecond) :
      told (s.insert w.dateKey (DateCall.record d).text) = .ok (.date nextSecond) :=
    congrArg Prod.fst (DateCall.alone_created Std.ExtHashMap.getElem?_insert_self hread lateLeap)
  have hstrange : Instant.readRfc3339 strangeLeap.millisText = some nextSecond :=
    Instant.readRfc3339_millisText (by decide)
  have hnext : Instant.readRfc3339 nextSecond.millisText = some nextSecond :=
    Instant.readRfc3339_millisText (by decide)
  refine ⟨by decide, rfl, rfl, by decide, by decide +kernel, hstrange, ?_, ?_, ?_, ?_, by decide⟩
  · rw [hrecord]
  · rw [hrecord]
    exact htold ∅ strangeLeap hstrange
  · rw [hrecord]
  · simp only [hrecord, Store.answer]
    exact htold _ nextSecond hnext

end Job

end Matinee.WatchList
