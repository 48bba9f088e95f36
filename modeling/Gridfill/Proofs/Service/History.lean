import Gridfill.Proofs.Outcome
import Gridfill.Proofs.Workbook.Load
import Gridfill.Service.Call
import Mathlib.Data.List.Induction

/-!
# What calls leave in the store

Calls are performed one after the other, each in the store that the one before has left, whether it failed or not. A
call changes the store in two ways only (`effect_perform`): an upload that answers keeps a template, and a deletion that
answers forgets one. A template is current when an upload has answered with its summary and no deletion of its
identifier has answered since. What a call does, it also does to the templates that are current (`Holds.after`); so the
store holds these and no others after every run (`holds_run`), and serves them as they were uploaded
(`serves_current_after_calls`).
-/

namespace Gridfill

open Store (summarize fillContent answerWith)

theorem Listing.lookup_eq_none_iff {α : Type} {name : String} {es : Listing α} :
    es.lookup name = none ↔ name ∉ es.names := by
  rw [List.lookup_eq_none_iff, names, List.mem_map]
  constructor
  · rintro h ⟨e, he, rfl⟩
    exact bne_iff_ne.mp (h e he) rfl
  · exact fun h e he => bne_iff_ne.mpr fun same => h ⟨e, he, same.symm⟩

/-! ### Runs -/

/-- A call that was performed, and its answer. -/
structure Event where
  call : Call
  answer : Except Failure Reply

namespace Event

/-- An upload of the content as a file of the name has answered with the summary. -/
def Uploads (e : Event) (content : Upload) (filename : String) (summary : Summary) : Prop :=
  ∃ settings stem, e = ⟨.upload settings stem (some filename) content, .ok (.summary summary)⟩

/-- A deletion of the identifier has answered. -/
def Deletes (e : Event) (id : String) : Prop := ∃ reply, e = ⟨.delete id, .ok reply⟩

end Event

/-- An upload has answered with the summary, and no deletion of its identifier has answered since. -/
def Current (events : List Event) (content : Upload) (filename : String) (summary : Summary) : Prop :=
  ∃ before e after, events = before ++ e :: after ∧ e.Uploads content filename summary ∧
    ∀ d ∈ after, ¬ d.Deletes summary.id

/-- The identifier that a call makes. -/
def Call.newId? : Call → Option String
  | .upload _ stem filename _ => (Store.acceptName filename).toOption.map (Store.makeId stem)
  | _ => none

/-- The store after calls one after the other, and what happened. -/
def Store.run : Store → List Call → Store × List Event
  | s, [] => (s, [])
  | s, call :: calls =>
    let (s', answer) := s.perform call
    let after := s'.run calls
    (after.1, ⟨call, answer⟩ :: after.2)

theorem Store.run_concat (calls : List Call) (call : Call) : ∀ s : Store, s.run (calls ++ [call]) =
    (((s.run calls).1.perform call).1, (s.run calls).2 ++ [⟨call, ((s.run calls).1.perform call).2⟩]) := by
  induction calls with
  | nil => exact fun _ => rfl
  | cons first calls ih =>
      intro s
      rw [List.cons_append, run]
      simp only [ih]
      rfl

/-- What happens in a run is the calls, with their answers. -/
theorem Store.call_run (calls : List Call) : ∀ s : Store, (s.run calls).2.map Event.call = calls := by
  induction calls with
  | nil => exact fun _ => rfl
  | cons call calls ih => exact fun s => congrArg (call :: ·) (ih _)

/-- What is current after one event more. -/
theorem current_concat {events : List Event} {e : Event} {content : Upload} {filename : String} {summary : Summary} :
    Current (events ++ [e]) content filename summary ↔ e.Uploads content filename summary ∨
      Current events content filename summary ∧ ¬ e.Deletes summary.id := by
  constructor
  · rintro ⟨before, u, after, split, uploads, kept⟩
    rcases List.eq_nil_or_concat after with rfl | ⟨after, last, rfl⟩
    · obtain ⟨-, same⟩ := List.append_inj' split rfl
      exact .inl (List.singleton_inj.mp same ▸ uploads)
    · rw [List.concat_eq_append, ← List.cons_append, ← List.append_assoc] at split
      rw [List.concat_eq_append] at kept
      obtain ⟨rfl, same⟩ := List.append_inj' split rfl
      obtain rfl := List.singleton_inj.mp same
      refine .inr ⟨⟨before, u, after, rfl, uploads, fun d hd => kept d (List.mem_append_left _ hd)⟩, ?_⟩
      exact kept e (List.mem_append_right _ (List.mem_singleton_self e))
  · rintro (uploads | ⟨⟨before, u, after, rfl, uploads, kept⟩, last⟩)
    · exact ⟨events, e, [], rfl, uploads, fun d hd => by cases hd⟩
    · refine ⟨before, u, after ++ [e], List.append_assoc _ _ _, uploads, fun d hd => ?_⟩
      rcases List.mem_append.mp hd with hd | hd
      · exact kept d hd
      · exact List.mem_singleton.mp hd ▸ last

namespace Store

/-! ### One call -/

/-- What a call that was performed can do to the store. -/
inductive Effect (s : Store) : Event → Store → Prop where
  | stays {e : Event} (uploads : ∀ content filename summary, ¬ e.Uploads content filename summary)
      (deletes : ∀ id, ¬ e.Deletes id) : Effect s e s
  | keeps {settings : Except Failure Settings} {stem filename : String} {content : Upload} {summary : Summary}
      (made : (Call.upload settings stem (some filename) content).newId? = some summary.id)
      (summarized : summarize summary.id (some filename) content = .ok summary) :
      Effect s ⟨.upload settings stem (some filename) content, .ok (.summary summary)⟩
        (s.keep summary.id content filename)
  | forgets (id : String) : Effect s ⟨.delete id, .ok (.deleted id)⟩ (s.forget id)

theorem eq_of_acceptName {filename : Option String} {name : String} (h : acceptName filename = .ok name) :
    filename = some name := by
  cases filename with
  | none => cases h
  | some filename =>
      rw [acceptName] at h
      split at h
      · cases h
      · split at h
        · exact congrArg some (Except.ok.inj h)
        · cases h

/-- What is accepted is summarized. -/
theorem summarize_of_acceptContent {settings : Except Failure Settings} {id filename : String} {content : Upload}
    {summary : Summary} (h : acceptContent settings id filename content = .ok summary) :
    summarize id (some filename) content = .ok summary := by
  obtain ⟨settings, -, h⟩ := bind_eq_ok_iff.mp h
  split at h
  · cases h
  · split at h
    · next found => exact found.trans h
    · cases h

theorem acceptContent_of_summarize {settings : Settings} {id filename : String} {content : Upload}
    {summary : Summary} (limit : ¬ settings.maxUploadBytes < content.size)
    (shown : summarize id (some filename) content = .ok summary) :
    acceptContent (.ok settings) id filename content = .ok summary := by
  refine bind_eq_ok_iff.mpr ⟨settings, rfl, ?_⟩
  rw [if_neg limit, shown]

/-- A summary has the identifier it was made with. -/
theorem id_of_summarize {id : String} {filename : Option String} {content : Upload} {summary : Summary}
    (h : summarize id filename content = .ok summary) : summary.id = id := by
  obtain ⟨entries, -, h⟩ := bind_eq_ok_iff.mp h
  obtain ⟨w, -, h⟩ := bind_eq_ok_iff.mp h
  obtain ⟨sheets, -, h⟩ := bind_eq_ok_iff.mp h
  obtain rfl := Except.ok.inj h
  rfl

/-- An upload of what is accepted keeps it. -/
theorem upload_of_accepts {settings : Except Failure Settings} {stem name : String} {filename : Option String}
    {content : Upload} {summary : Summary} (s : Store) (accepts : acceptName filename = .ok name)
    (shown : acceptContent settings (makeId stem name) name content = .ok summary) :
    s.upload settings stem filename content = (s.keep (makeId stem name) content name, .ok summary) := by
  rw [upload, accepts]
  simp only [shown]

/-- An upload keeps the template and answers with its summary, or leaves the store. -/
theorem upload_cases (settings : Except Failure Settings) (s : Store) (stem : String) (filename : Option String)
    (content : Upload) :
    (∃ f, s.upload settings stem filename content = (s, .error f)) ∨
      ∃ name summary, filename = some name ∧ acceptName filename = .ok name ∧ summary.id = makeId stem name ∧
        summarize summary.id (some name) content = .ok summary ∧
        s.upload settings stem filename content = (s.keep summary.id content name, .ok summary) := by
  cases hname : acceptName filename with
  | error f =>
      refine .inl ⟨f, ?_⟩
      rw [upload, hname]
  | ok name =>
      cases hcontent : acceptContent settings (makeId stem name) name content with
      | error f =>
          refine .inl ⟨f, ?_⟩
          rw [upload, hname]
          simp only [hcontent]
      | ok summary =>
          have summarized := summarize_of_acceptContent hcontent
          have id := id_of_summarize summarized
          refine .inr ⟨name, summary, eq_of_acceptName hname, rfl, id, id ▸ summarized, ?_⟩
          rw [upload_of_accepts s hname hcontent, id]

/-- A deletion forgets the template, or leaves the store. -/
theorem delete_cases (s : Store) (id : String) :
    (∃ f, s.delete id = (s, .error f)) ∨ s.delete id = (s.forget id, .ok ()) := by
  rw [delete]
  cases s.content id with
  | error f => exact .inl ⟨f, rfl⟩
  | ok content => exact .inr rfl

theorem effect_perform (s : Store) (call : Call) : Effect s ⟨call, (s.perform call).2⟩ (s.perform call).1 := by
  cases call with
  | upload settings stem filename content =>
      rw [perform]
      rcases upload_cases settings s stem filename content with ⟨f, h⟩ | ⟨name, summary, rfl, accepts, id, shown, h⟩
      · rw [h]
        exact .stays (fun _ _ _ ⟨_, _, same⟩ => by cases same) fun _ ⟨_, same⟩ => by cases same
      · rw [h]
        refine .keeps ?_ shown
        rw [Call.newId?, accepts, id]
        rfl
  | get id => exact .stays (fun _ _ _ ⟨_, _, same⟩ => by cases same) fun _ ⟨_, same⟩ => by cases same
  | render settings id request =>
      exact .stays (fun _ _ _ ⟨_, _, same⟩ => by cases same) fun _ ⟨_, same⟩ => by cases same
  | delete id =>
      rw [perform]
      rcases delete_cases s id with ⟨f, h⟩ | h
      · rw [h]
        exact .stays (fun _ _ _ ⟨_, _, same⟩ => by cases same) fun _ ⟨_, same⟩ => by cases same
      · rw [h]
        exact .forgets id

/-! ### The templates that are current -/

/-- The store holds the templates that are current and no others, under the same identifiers in both listings. -/
structure Holds (s : Store) (events : List Event) : Prop where
  names : s.contents.names = s.filenames.names
  known : ∀ content filename summary, Current events content filename summary ↔
    s.contents.lookup summary.id = some content ∧ s.filenames.lookup summary.id = some filename ∧
      summarize summary.id (some filename) content = .ok summary
  complete : ∀ id content, s.contents.lookup id = some content → ∃ filename summary,
    summary.id = id ∧ s.filenames.lookup id = some filename ∧ summarize id (some filename) content = .ok summary

theorem holds_empty : empty.Holds [] where
  names := rfl
  known content filename summary := by
    refine ⟨fun ⟨before, e, after, split, _⟩ => ?_, fun ⟨h, _⟩ => by cases h⟩
    cases before <;> cases split
  complete id content h := by cases h

/-- A call that neither keeps nor forgets a template leaves those that are current. -/
theorem Holds.stays {s : Store} {events : List Event} (h : s.Holds events) {e : Event}
    (uploads : ∀ content filename summary, ¬ e.Uploads content filename summary) (deletes : ∀ id, ¬ e.Deletes id) :
    s.Holds (events ++ [e]) where
  names := h.names
  known content filename summary := by
    rw [current_concat, ← h.known]
    exact ⟨fun hc => (hc.resolve_left (uploads _ _ _)).1, fun hc => .inr ⟨hc, deletes _⟩⟩
  complete := h.complete

/-- An upload that answers keeps its template besides those that are current, when none of them has its identifier. -/
theorem Holds.keep {s : Store} {events : List Event} (h : s.Holds events) (settings : Except Failure Settings)
    (stem : String) {name : String} {kept : Upload} {shown : Summary}
    (summarized : summarize shown.id (some name) kept = .ok shown)
    (fresh : ∀ content filename summary, Current events content filename summary → summary.id ≠ shown.id) :
    (s.keep shown.id kept name).Holds
      (events ++ [⟨.upload settings stem (some name) kept, .ok (.summary shown)⟩]) where
  names := by
    show (Listing.put _ _ _).names = (Listing.put _ _ _).names
    rw [Listing.names_put, Listing.names_put, h.names]
  known content filename summary := by
    rw [current_concat]
    show _ ↔ (Listing.put _ _ _).lookup _ = _ ∧ (Listing.put _ _ _).lookup _ = _ ∧ _
    by_cases same : summary.id = shown.id
    · rw [same, Listing.lookup_put, Listing.lookup_put]
      constructor
      · rintro (⟨_, _, eq⟩ | ⟨current, -⟩)
        · cases eq
          exact ⟨rfl, rfl, summarized⟩
        · exact absurd same (fresh content filename summary current)
      · rintro ⟨⟨⟩, ⟨⟩, again⟩
        obtain rfl := Except.ok.inj (summarized.symm.trans again)
        exact .inl ⟨settings, stem, rfl⟩
    · rw [Listing.lookup_put_ne _ _ same, Listing.lookup_put_ne _ _ same, ← h.known]
      constructor
      · rintro (⟨_, _, eq⟩ | ⟨current, -⟩)
        · cases eq
          exact absurd rfl same
        · exact current
      · exact fun current => .inr ⟨current, fun ⟨_, eq⟩ => by cases eq⟩
  complete id content hid := by
    have hid : (Listing.put shown.id kept s.contents).lookup id = some content := hid
    show ∃ filename summary, _ ∧ (Listing.put shown.id name s.filenames).lookup id = _ ∧ _
    by_cases same : id = shown.id
    · rw [same, Listing.lookup_put] at hid ⊢
      obtain rfl := Option.some.inj hid
      exact ⟨name, shown, rfl, rfl, summarized⟩
    · rw [Listing.lookup_put_ne _ _ same] at hid ⊢
      exact h.complete id content hid

/-- A deletion that answers forgets the template of its identifier and no other. -/
theorem Holds.forget {s : Store} {events : List Event} (h : s.Holds events) (gone : String) :
    (s.forget gone).Holds (events ++ [⟨.delete gone, .ok (.deleted gone)⟩]) where
  names := by
    show (Listing.erase _ _).names = (Listing.erase _ _).names
    rw [Listing.names_erase, Listing.names_erase, h.names]
  known content filename summary := by
    rw [current_concat]
    show _ ↔ (Listing.erase _ _).lookup _ = _ ∧ (Listing.erase _ _).lookup _ = _ ∧ _
    by_cases same : summary.id = gone
    · rw [same, Listing.lookup_erase]
      refine ⟨fun hc => ?_, fun ⟨hc, _⟩ => by cases hc⟩
      rcases hc with ⟨_, _, eq⟩ | ⟨-, deletes⟩
      · cases eq
      · exact absurd ⟨_, rfl⟩ deletes
    · rw [Listing.lookup_erase_ne _ same, Listing.lookup_erase_ne _ same, ← h.known]
      refine ⟨fun hc => ?_, fun current => .inr ⟨current, fun ⟨_, eq⟩ => by cases eq; exact same rfl⟩⟩
      rcases hc with ⟨_, _, eq⟩ | ⟨current, -⟩
      · cases eq
      · exact current
  complete id content hid := by
    have hid : (Listing.erase gone s.contents).lookup id = some content := hid
    show ∃ filename summary, _ ∧ (Listing.erase gone s.filenames).lookup id = _ ∧ _
    by_cases same : id = gone
    · rw [same, Listing.lookup_erase] at hid
      cases hid
    · rw [Listing.lookup_erase_ne _ same] at hid ⊢
      exact h.complete id content hid

/-- What a call does to the store, it does to the templates that are current, when it makes no identifier again. -/
theorem Holds.after {s s' : Store} {events : List Event} {e : Event} (h : s.Holds events) (effect : s.Effect e s')
    (fresh : ∀ content filename summary, Current events content filename summary →
      e.call.newId? ≠ some summary.id) : s'.Holds (events ++ [e]) := by
  cases effect with
  | stays uploads deletes => exact h.stays uploads deletes
  | keeps made summarized =>
      refine h.keep _ _ summarized fun content filename summary current same => ?_
      exact fresh content filename summary current (same ▸ made)
  | forgets gone => exact h.forget gone

/-- An upload that answers has made the identifier of its summary. -/
theorem Effect.newId_of_uploads {s s' : Store} {e : Event} (effect : s.Effect e s') {content : Upload}
    {filename : String} {summary : Summary} (uploads : e.Uploads content filename summary) :
    e.call.newId? = some summary.id := by
  cases effect with
  | stays none => exact absurd uploads (none _ _ _)
  | keeps made =>
      obtain ⟨_, _, eq⟩ := uploads
      cases eq
      exact made
  | forgets =>
      obtain ⟨_, _, eq⟩ := uploads
      cases eq

/-- The identifiers of the templates that are current were made by calls. -/
theorem newId_of_current {s : Store} {calls : List Call} {content : Upload} {filename : String} {summary : Summary}
    (h : Current (s.run calls).2 content filename summary) : summary.id ∈ calls.filterMap Call.newId? := by
  induction calls using List.reverseRecOn with
  | nil =>
      obtain ⟨before, _, _, split, -⟩ := h
      cases before <;> cases split
  | append_singleton calls call ih =>
      rw [run_concat, current_concat] at h
      rw [List.filterMap_append]
      rcases h with uploads | ⟨current, -⟩
      · have made := (effect_perform _ call).newId_of_uploads uploads
        exact List.mem_append_right _ (List.mem_filterMap.mpr ⟨call, List.mem_singleton_self call, made⟩)
      · exact List.mem_append_left _ (ih current)

/-- After every run the store holds the templates that are current and no others. -/
theorem holds_run (calls : List Call) (fresh : (calls.filterMap Call.newId?).Nodup) :
    (empty.run calls).1.Holds (empty.run calls).2 := by
  induction calls using List.reverseRecOn with
  | nil => exact holds_empty
  | append_singleton calls call ih =>
      rw [List.filterMap_append, List.nodup_append] at fresh
      obtain ⟨fresh, -, apart⟩ := fresh
      rw [run_concat]
      refine (ih fresh).after (effect_perform _ call) fun content filename summary current made => ?_
      have makes : summary.id ∈ [call].filterMap Call.newId? :=
        List.mem_filterMap.mpr ⟨call, List.mem_singleton_self call, made⟩
      exact apart _ (newId_of_current current) _ makes rfl

/-! ### What the store answers -/

/-- The store serves a template: it shows the summary, fills the content under the file name, and can forget it. -/
structure Serves (s : Store) (content : Upload) (filename : String) (summary : Summary) : Prop where
  content_eq : s.contents.lookup summary.id = some content
  filename_eq : s.filenames.lookup summary.id = some filename
  get : s.perform (.get summary.id) = (s, .ok (.summary summary))
  render : ∀ settings request, s.perform (.render settings summary.id request) =
    (s, (settings >>= fun settings => fillContent settings content request >>= answerWith filename).map .rendered)
  delete : s.perform (.delete summary.id) = (s.forget summary.id, .ok (.deleted summary.id))

/-- The store does not know an identifier: it refuses to show, to fill and to forget a template of it. -/
structure Refuses (s : Store) (id : String) : Prop where
  content_eq : s.contents.lookup id = none
  filename_eq : s.filenames.lookup id = none
  get : s.perform (.get id) = (s, .error (.refused .unknownTemplate))
  render : ∀ settings request, s.perform (.render settings id request) = (s, .error (.refused .unknownTemplate))
  delete : s.perform (.delete id) = (s, .error (.refused .unknownTemplate))

theorem content_of_lookup {s : Store} {id : String} {content : Upload} (h : s.contents.lookup id = some content) :
    s.content id = .ok content := by
  rw [Store.content, h]

theorem content_of_lookup_none {s : Store} {id : String} (h : s.contents.lookup id = none) :
    s.content id = .error (.refused .unknownTemplate) := by
  rw [Store.content, h]

theorem filename_of_lookup {s : Store} {id filename : String} (h : s.filenames.lookup id = some filename) :
    s.filename id = .ok filename := by
  rw [Store.filename, h]

theorem serves_of_lookup {s : Store} {content : Upload} {filename : String} {summary : Summary}
    (hcontent : s.contents.lookup summary.id = some content)
    (hfilename : s.filenames.lookup summary.id = some filename)
    (shown : summarize summary.id (some filename) content = .ok summary) : s.Serves content filename summary where
  content_eq := hcontent
  filename_eq := hfilename
  get := by
    rw [perform, show?, content_of_lookup hcontent, hfilename]
    show (s, (summarize summary.id (some filename) content).map Reply.summary) = _
    rw [shown]
    rfl
  render settings request := by
    rw [perform, Store.render, content_of_lookup hcontent, filename_of_lookup hfilename]
    cases settings with
    | error f => rfl
    | ok settings => simp only [ok_bind]
  delete := by
    rw [perform, Store.delete, content_of_lookup hcontent]
    rfl

theorem refuses_of_lookup {s : Store} {id : String} (hcontent : s.contents.lookup id = none)
    (hfilename : s.filenames.lookup id = none) : s.Refuses id where
  content_eq := hcontent
  filename_eq := hfilename
  get := by
    rw [perform, show?, content_of_lookup_none hcontent]
    rfl
  render settings request := by
    rw [perform, Store.render, content_of_lookup_none hcontent]
    rfl
  delete := by
    rw [perform, Store.delete, content_of_lookup_none hcontent]
    rfl

/-- An upload that fails leaves the store. -/
theorem upload_of_error {s : Store} {settings : Except Failure Settings} {stem : String} {filename : Option String}
    {content : Upload} {f : Failure} (h : (s.perform (.upload settings stem filename content)).2 = .error f) :
    (s.perform (.upload settings stem filename content)).1 = s := by
  rw [perform] at h ⊢
  rcases upload_cases settings s stem filename content with ⟨f', eq⟩ | ⟨_, _, _, _, _, _, eq⟩
  · rw [eq]
  · rw [eq] at h
    cases h

end Store

/-- After every run of calls that makes no identifier twice, both listings of the store have the same identifiers; the
templates that an upload has answered with, and that no deletion has forgotten since, are served as they were uploaded;
every other identifier is refused; and an upload that fails leaves the store. -/
theorem Store.serves_current_after_calls (calls : List Call) (fresh : (calls.filterMap Call.newId?).Nodup) :
    (empty.run calls).1.contents.names = (empty.run calls).1.filenames.names ∧
      (∀ content filename summary, Current (empty.run calls).2 content filename summary →
        (empty.run calls).1.Serves content filename summary) ∧
      (∀ id, (¬ ∃ content filename summary, Current (empty.run calls).2 content filename summary ∧ summary.id = id) →
        (empty.run calls).1.Refuses id) ∧
      ∀ settings stem filename content f,
        ((empty.run calls).1.perform (.upload settings stem filename content)).2 = .error f →
        ((empty.run calls).1.perform (.upload settings stem filename content)).1 = (empty.run calls).1 := by
  have holds := holds_run calls fresh
  refine ⟨holds.names, fun content filename summary current => ?_, fun id unknown => ?_, fun _ _ _ _ _ => upload_of_error⟩
  · obtain ⟨hcontent, hfilename, shown⟩ := (holds.known content filename summary).mp current
    exact serves_of_lookup hcontent hfilename shown
  · have none : (empty.run calls).1.contents.lookup id = none := by
      refine Option.eq_none_iff_forall_ne_some.mpr fun content hcontent => unknown ?_
      obtain ⟨filename, summary, rfl, hfilename, shown⟩ := holds.complete id content hcontent
      exact ⟨content, filename, summary, (holds.known _ _ _).mpr ⟨hcontent, hfilename, shown⟩, rfl⟩
    refine refuses_of_lookup none (Listing.lookup_eq_none_iff.mpr ?_)
    exact holds.names ▸ Listing.lookup_eq_none_iff.mp none

/-! ### A run -/

namespace Small

/-- The container of the small workbook as it is uploaded. -/
def uploaded : Upload := ⟨4096, .ok entries⟩

/-- The small workbook is uploaded; it is filled at a sheet that it does not have; it is uploaded again, under a name
that no workbook has; a template that is not there is deleted. -/
def calls : List Call :=
  [.upload (.ok .default) "1" (some "a.xlsx") uploaded,
    .render (.ok .default) "1_a.xlsx" ⟨⟨none, .ofValues []⟩, some [⟨some (.name "Three"), .ofValues []⟩]⟩,
    .upload (.ok .default) "2" (some "b.txt") uploaded, .delete "2_b.txt"]

/-- The small workbook with both of its sheets opened. -/
def bookBoth : Workbook := { bookOne with opened := [one, two] }

theorem exists_summary : ∃ summary, summarize "1_a.xlsx" (some "a.xlsx") uploaded = .ok summary := by
  have opensOne : book.openSheet (.number 1) = .ok (one, bookOne) := open_one
  have opensTwo : bookOne.openSheet (.number 2) = .ok (two, bookBoth) := by
    refine bind_eq_ok_iff.mpr ⟨two.info, rfl, ?_⟩
    show (Sheet.load book.package two.info >>= fun sheet => _) = _
    rw [load_two]
    rfl
  obtain ⟨found, hone⟩ := exists_of_isOk
    (show (Workbook.sheetPlaceholders bookOne.pool one).toBool = true by decide +kernel)
  obtain ⟨found', htwo⟩ := exists_of_isOk
    (show (Workbook.sheetPlaceholders bookBoth.pool two).toBool = true by decide +kernel)
  have first : Store.summarizeSheet book one.info = .ok (⟨1, "One", [], found⟩, bookOne) :=
    bind_eq_ok_iff.mpr ⟨_, opensOne, bind_eq_ok_iff.mpr ⟨found, hone, rfl⟩⟩
  have second : Store.summarizeSheet bookOne two.info = .ok (⟨2, "Two", [], found'⟩, bookBoth) :=
    bind_eq_ok_iff.mpr ⟨_, opensTwo, bind_eq_ok_iff.mpr ⟨found', htwo, rfl⟩⟩
  have sheets : Store.summarizeSheets book [one.info, two.info] = .ok [⟨1, "One", [], found⟩, ⟨2, "Two", [], found'⟩] :=
    bind_eq_ok_iff.mpr ⟨_, first, bind_eq_ok_iff.mpr ⟨_, bind_eq_ok_iff.mpr ⟨_, second, rfl⟩, rfl⟩⟩
  exact ⟨_, bind_eq_ok_iff.mpr ⟨entries, rfl, bind_eq_ok_iff.mpr ⟨book, load_entries,
    bind_eq_ok_iff.mpr ⟨_, sheets, rfl⟩⟩⟩⟩

end Small

theorem Store.serves_current_after_calls_small : (Small.calls.filterMap Call.newId?).Nodup ∧
    ∃ summary, Current (empty.run Small.calls).2 Small.uploaded "a.xlsx" summary ∧ summary.id = "1_a.xlsx" ∧
      (empty.run Small.calls).1.Serves Small.uploaded "a.xlsx" summary ∧
      (empty.run Small.calls).1.Refuses "2_b.txt" := by
  have made : Small.calls.filterMap Call.newId? = ["1_a.xlsx"] := by decide +kernel
  have fresh : (Small.calls.filterMap Call.newId?).Nodup := by rw [made]; exact List.nodup_cons.mpr ⟨List.not_mem_nil, .nil⟩
  obtain ⟨summary, shown⟩ := Small.exists_summary
  have id := id_of_summarize shown
  have answers : (empty.perform (.upload (.ok .default) "1" (some "a.xlsx") Small.uploaded)).2 =
      .ok (.summary summary) := by
    have accepts : acceptName (some "a.xlsx") = .ok "a.xlsx" := by decide +kernel
    have named : makeId "1" "a.xlsx" = "1_a.xlsx" := by decide
    have limit : ¬ Settings.default.maxUploadBytes < Small.uploaded.size := by decide
    rw [perform, upload_of_accepts empty accepts (named ▸ acceptContent_of_summarize limit shown)]
    rfl
  have current : Current (empty.run Small.calls).2 Small.uploaded "a.xlsx" summary := by
    refine ⟨[], _, _, rfl, ⟨.ok .default, "1", congrArg (Event.mk _) answers⟩, ?_⟩
    rintro d hd ⟨reply, rfl⟩
    have called := List.mem_map_of_mem (f := Event.call) hd
    rw [call_run, id] at called
    simp only [List.mem_cons, Call.delete.injEq, reduceCtorEq, false_or, List.not_mem_nil, or_false] at called
    exact absurd called (by decide)
  obtain ⟨-, serves, refuses, -⟩ := serves_current_after_calls Small.calls fresh
  refine ⟨fresh, summary, current, id, serves _ _ _ current, refuses _ ?_⟩
  rintro ⟨content, filename, other, known, same⟩
  have makes := newId_of_current known
  rw [made, List.mem_singleton, same] at makes
  exact absurd makes (by decide)

end Gridfill
