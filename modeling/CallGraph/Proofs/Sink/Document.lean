import CallGraph.Proofs.Disk.Writing
import CallGraph.Proofs.Json.RoundTrip
import CallGraph.Proofs.Step
import CallGraph.Sink.Document

/-! A document holds exactly the members it has been given, on any file; on a full device it fails. -/
namespace CallGraph.Document

open Disk (Place Writer Confined)

structure Shape where
  path : String
  opener : String
  closer : String

/-- The text of a document before it is closed. -/
def Shape.openText (shape : Shape) (members : List (List String)) : String :=
  shape.opener ++ String.join (Json.separated members)

variable {place : Place} {before text more : String} {s : Document × Disk}

/-- The text has gone to a place: to a file, or, as far as that goes, to a full device. -/
def Given (place : Place) (text : String) (s : Document × Disk) : Prop :=
  ∃ w, s.1.writer? = some w ∧ w.handle.place = place ∧ (w.Stuck ∨ w.Holds s.2 text.toByteArray)

def GoodUnlessFull (place : Place) (path : String) (result : Except ExportError Unit) : Prop :=
  result = .ok () ∨ place = .full ∧ result = .error (.io path .noSpace)

structure Written (place : Place) (text : String) (s : Document × Disk)
    (r : Except ExportError Unit × Document × Disk) : Prop where
  given : Given place text r.2
  path : r.2.1.path = s.1.path
  closer : r.2.1.closer = s.1.closer
  hasMembers : s.1.hasMembers → r.2.1.hasMembers
  confined : Confined place s.2 r.2.2
  result : GoodUnlessFull place s.1.path r.1

/-- A full device has been given any text just as well. -/
theorem Given.of_full (h : Given .full text s) (other : String) : Given .full other s := by
  obtain ⟨w, hw, hplace, hstuck | ⟨_, ⟨_, _, hfile, _⟩, _⟩⟩ := h
  · exact ⟨w, hw, hplace, .inl hstuck⟩
  · rw [hplace] at hfile
    cases hfile

theorem write_written (h : Given place before s) (piece : String) :
    Written place (before ++ piece) s (write piece s) := by
  obtain ⟨doc, d⟩ := s
  obtain ⟨w, hw, hplace, hstuck | hholds⟩ := h
  · obtain ⟨result, w', hput, hstuck', hresult⟩ := Writer.put_stuck hstuck piece.toByteArray d
    have hfull : place = .full := hplace.symm.trans hstuck.1
    dsimp only at hw
    simp only [write, hw, String.toUTF8_eq_toByteArray, hput]
    refine ⟨⟨w', rfl, hstuck'.1.trans hfull.symm, .inl hstuck'⟩, rfl, rfl, id, .refl _ d, ?_⟩
    rcases hresult with rfl | rfl
    · exact .inl rfl
    · exact .inr ⟨hfull, rfl⟩
  · obtain ⟨w', d', hput, hplace', hholds', hconf⟩ := Writer.put_holds hholds piece.toByteArray
    dsimp only at hw
    simp only [write, hw, String.toUTF8_eq_toByteArray, hput]
    rw [hplace] at hconf
    refine ⟨⟨w', rfl, hplace'.trans hplace, .inr ?_⟩, rfl, rfl, id, hconf, .inl rfl⟩
    rw [String.toByteArray_append]
    exact hholds'

theorem Written.andThen {first second : Action (Document × Disk) ExportError Unit}
    (h : Written place text s (first s))
    (h' : Written place more (first s).2 (second (first s).2)) :
    Written place more s (first.andThen (fun _ => second) s) := by
  rcases h.result with hok | ⟨hfull, herror⟩
  · rw [Action.andThen_of_ok _ hok]
    exact ⟨h'.given, h'.path.trans h.path, h'.closer.trans h.closer,
      fun hm => h'.hasMembers (h.hasMembers hm), h.confined.trans h'.confined,
      h.path ▸ h'.result⟩
  · subst hfull
    rw [Action.andThen_of_error _ herror]
    exact ⟨h.given.of_full more, h.path, h.closer, h.hasMembers, h.confined, .inr ⟨rfl, rfl⟩⟩

theorem writeAll_written (h : Given place before s) (pieces : List String) :
    Written place (before ++ String.join pieces) s (writeAll pieces s) := by
  induction pieces generalizing before s with
  | nil =>
    rw [String.join_nil, String.append_empty]
    exact ⟨h, rfl, rfl, id, .refl _ _, .inl rfl⟩
  | cons piece pieces ih =>
    rw [String.join_cons, ← String.append_assoc]
    have hpiece := write_written h piece
    exact hpiece.andThen (ih hpiece.given)

structure Holds (shape : Shape) (place : Place) (members : List (List String))
    (s : Document × Disk) : Prop where
  path : s.1.path = shape.path
  closer : s.1.closer = shape.closer
  leads : s.2.LeadsTo shape.path place
  given : Given place (shape.openText members) s
  hasMembers : place = .full ∨ s.1.hasMembers = !members.isEmpty

variable {shape : Shape} {members : List (List String)}

/-- A document stays as it is while another place is written to. -/
theorem Holds.elsewhere {doc : Document} {d d' : Disk} {other : Place}
    (h : Holds shape place members (doc, d)) (hconf : Confined other d d')
    (hapart : ∀ loc, place = .file loc → other ≠ .file loc) :
    Holds shape place members (doc, d') := by
  refine ⟨h.path, h.closer, hconf.entries.leadsTo h.leads, ?_, h.hasMembers⟩
  obtain ⟨w, hw, hplace, hstuck | ⟨settled, ⟨loc, executable, hfile, hnode, hoffset⟩, htext⟩⟩ :=
    h.given
  · exact ⟨w, hw, hplace, .inl hstuck⟩
  · refine ⟨w, hw, hplace, .inr ⟨settled, ⟨loc, executable, hfile, ?_, hoffset⟩, htext⟩⟩
    exact (hconf.elsewhere loc (hapart loc (hplace.symm.trans hfile))).trans hnode

theorem Holds.of_full (h : Holds shape .full members s) (other : List (List String)) :
    Holds shape .full other s :=
  ⟨h.path, h.closer, h.leads, h.given.of_full _, .inl rfl⟩

theorem Holds.isFile {loc : Location} (h : Holds shape (.file loc) members s) :
    s.2.isFile shape.path := by
  obtain ⟨w, -, hplace, hstuck | ⟨_, ⟨loc', executable, hfile, hnode, -⟩, -⟩⟩ := h.given
  · exact absurd (hplace.symm.trans hstuck.1) (by simp)
  · rw [hplace] at hfile
    cases hfile
    have hleads : s.2.locate shape.path = .ok (.at loc) := h.leads
    simp [Disk.isFile, Disk.lookup?, hleads, hnode]

theorem Holds.ne_full (h : Holds shape place members s) (hfile : s.2.isFile shape.path) :
    place ≠ .full := by
  rintro rfl
  obtain ⟨loc, hleads, hnode⟩ := h.leads
  simp [Disk.isFile, Disk.lookup?, hleads, hnode] at hfile

theorem Holds.isFullDevice_iff (h : Holds shape place members s) :
    s.2.isFullDevice shape.path ↔ place = .full := by
  cases place with
  | full =>
    obtain ⟨loc, hleads, hnode⟩ := h.leads
    simp [Disk.isFullDevice, Disk.lookup?, hleads, hnode]
  | file loc =>
    have hfile := h.isFile
    unfold Disk.isFile at hfile
    unfold Disk.isFullDevice
    split at hfile <;> simp_all

theorem create_holds (shape : Shape) {doc : Document} {d d' : Disk} (hopener : shape.opener ≠ "")
    (h : create shape.path shape.opener shape.closer d = (.ok doc, d')) :
    ∃ place, Holds shape place [] (doc, d') ∧ Confined place d d' := by
  have htext : shape.openText [] = shape.opener := String.append_empty
  unfold create at h
  rw [String.toUTF8_eq_toByteArray] at h
  rcases hcreate : Disk.create shape.path d with ⟨_ | handle, d₁⟩
  · simp [hcreate] at h
  obtain ⟨hleads, hconf, hfull | hend⟩ := Disk.create_eq_ok hcreate
  · rcases hput : Writer.put shape.opener.toByteArray (.start handle, d₁) with ⟨_ | _, w, d₂⟩
    · simp [hcreate, hput] at h
    simp only [hcreate, hput, Prod.mk.injEq, Except.ok.injEq] at h
    obtain ⟨rfl, rfl⟩ := h
    have hbytes : shape.opener.toByteArray ≠ .empty := by simpa using hopener
    obtain ⟨hstuck, rfl⟩ := Writer.put_start_full hfull hbytes hput
    rw [hfull] at hleads hconf
    exact ⟨.full, ⟨rfl, rfl, hleads, ⟨w, rfl, hstuck.1, .inl hstuck⟩, .inl rfl⟩, hconf⟩
  · have hstart : (Writer.start handle).Holds d₁ .empty := ⟨.empty, hend, rfl⟩
    obtain ⟨w, d₂, hput, hplace, hholds, hconf'⟩ :=
      Writer.put_holds hstart shape.opener.toByteArray
    simp only [hcreate, hput, Prod.mk.injEq, Except.ok.injEq] at h
    obtain ⟨rfl, rfl⟩ := h
    rw [ByteArray.empty_append, ← htext] at hholds
    exact ⟨handle.place, ⟨rfl, rfl, hconf'.entries.leadsTo hleads, ⟨w, rfl, hplace, .inr hholds⟩,
      .inr rfl⟩, hconf.trans hconf'⟩

/-- Beginning a member marks the document, and writes a comma behind another member. -/
theorem beginMember_written (h : Holds shape place members s) :
    Written place (shape.openText members ++ if members.isEmpty then "" else ",") s
      (beginMember s) ∧ (beginMember s).2.1.hasMembers := by
  obtain ⟨doc, d⟩ := s
  have hgiven : ∀ {text}, Given place text (doc, d) →
      Given place text ({ doc with hasMembers := true }, d) := fun hg => hg
  unfold beginMember
  -- The mark and the members disagree on a full device only, which has been given any text.
  by_cases hm : doc.hasMembers
  · have hw := write_written h.given ","
    simp only [hm, if_true, and_true]
    refine ⟨?_, hw.path, hw.closer, fun _ => rfl, hw.confined, hw.result⟩
    by_cases hempty : members.isEmpty
    · have hfull : place = .full := h.hasMembers.resolve_right (by simp [hm, hempty])
      subst hfull
      exact hw.given.of_full _
    · rw [if_neg hempty]
      exact hw.given
  · dsimp only
    rw [if_neg hm]
    refine ⟨⟨?_, rfl, rfl, fun _ => rfl, .refl _ _, .inl rfl⟩, rfl⟩
    by_cases hempty : members.isEmpty
    · rw [if_pos hempty, String.append_empty]
      exact hgiven h.given
    · have hfull : place = .full := h.hasMembers.resolve_right (by simp [hm, hempty])
      subst hfull
      exact hgiven (h.given.of_full _)

theorem openText_concat (shape : Shape) (members : List (List String)) (pieces : List String) :
    shape.openText (members ++ [pieces]) =
      shape.openText members ++ (if members.isEmpty then "" else ",") ++ String.join pieces := by
  unfold Shape.openText
  rw [Json.separated_concat, String.join_append, String.join_append]
  cases members <;> simp [String.append_assoc]

/-- A member that is appended is one more member of the document. -/
theorem append_holds (h : Holds shape place members s) (pieces : List String) :
    Holds shape place (members ++ [pieces]) (append pieces s).2 ∧
      Confined place s.2 (append pieces s).2.2 ∧
      GoodUnlessFull place shape.path (append pieces s).1 := by
  obtain ⟨hbegin, hmark⟩ := beginMember_written h
  have hall := writeAll_written hbegin.given pieces
  have happend : Written place _ s (append pieces s) := hbegin.andThen hall
  rw [← openText_concat] at happend
  refine ⟨⟨happend.path.trans h.path, happend.closer.trans h.closer,
    happend.confined.entries.leadsTo h.leads, happend.given, .inr ?_⟩, happend.confined,
    h.path ▸ happend.result⟩
  have hkept : (append pieces s).2.1.hasMembers := by
    unfold append
    rcases hbegin.result with hok | ⟨-, herror⟩
    · rw [Action.andThen_of_ok _ hok]
      exact hall.hasMembers hmark
    · rw [Action.andThen_of_error _ herror]
      exact hmark
  rw [hkept]
  simp

/-- What closing leaves behind: the whole text on a file, and a failure on a full device. -/
structure Closed (shape : Shape) (place : Place) (members : List (List String))
    (s : Document × Disk) (r : Except ExportError Unit × Document × Disk) : Prop where
  writer : r.2.1.writer? = none
  confined : Confined place s.2 r.2.2
  full : place = .full → r.1 = .error (.io shape.path .noSpace)
  file : ∀ loc, place = .file loc → r.1 = .ok () ∧ ∃ executable, r.2.2.node? loc =
    some (.file (.bytes (shape.openText members ++ shape.closer).toByteArray) executable)

theorem close_closed (h : Holds shape place members s) :
    Closed shape place members s (close s) := by
  obtain ⟨doc, d⟩ := s
  obtain ⟨w, hw, hplace, hstuck | hholds⟩ := h.given
  · obtain ⟨result, w', hput, hstuck', hresult⟩ := Writer.put_stuck hstuck doc.closer.toByteArray d
    have hfull : place = .full := hplace.symm.trans hstuck.1
    have hclose : close (doc, d) =
        (.error (.io doc.path .noSpace), { doc with writer? := none }, d) := by
      dsimp only at hw
      rcases hresult with rfl | rfl <;>
        simp [close, hw, Action.andThen, hput, Writer.flush_stuck hstuck', Except.mapError]
    rw [hclose]
    refine ⟨rfl, .refl _ d, fun _ => by rw [← h.path], fun loc hfile => ?_⟩
    rw [hfull] at hfile
    cases hfile
  · obtain ⟨w', d', hput, hplace', hholds', hconf⟩ :=
      Writer.put_holds hholds doc.closer.toByteArray
    obtain ⟨w'', d'', hflush, hplace'', hend, -, hconf'⟩ := Writer.flush_holds hholds'
    have hclose : close (doc, d) = (.ok (), { doc with writer? := none }, d'') := by
      dsimp only at hw
      simp [close, hw, Action.andThen, hput, hflush, Except.mapError]
    rw [hplace] at hconf hplace'
    rw [hplace'] at hconf' hplace''
    obtain ⟨loc, executable, hfile, hnode, -⟩ := hend
    have hloc : place = .file loc := hplace''.symm.trans hfile
    rw [hclose]
    refine ⟨rfl, hconf.trans hconf', fun hfull => ?_, fun loc' hfile' => ⟨rfl, executable, ?_⟩⟩
    · rw [hloc] at hfull
      cases hfull
    · rw [hloc] at hfile'
      cases hfile'
      rw [String.toByteArray_append, ← h.closer]
      exact hnode

theorem Closed.ok_or_full {r : Except ExportError Unit × Document × Disk}
    (h : Closed shape place members s r) :
    r.1 = .ok () ∧ place ≠ .full ∨ place = .full ∧ r.1 = .error (.io shape.path .noSpace) := by
  cases hplace : place with
  | full => exact .inr ⟨rfl, h.full hplace⟩
  | file loc => exact .inl ⟨(h.file loc hplace).1, by simp⟩

end CallGraph.Document
