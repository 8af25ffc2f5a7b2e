import CallGraph.Proofs.Disk.Folders
import CallGraph.Proofs.Sink.Documents

/-!
Documents that cannot be opened. Nothing is lost unless the edge document alone cannot be created: the
method document has then been emptied already, and its opening bracket is all that is left in it.
-/
namespace CallGraph

open Disk (Place Writer Confined)

namespace Disk

variable {d d' : Disk}

theorem create_eq_error {path : String} {e : IoError} (h : create path d = (.error e, d')) :
    d' = d := by
  unfold create at h
  split at h
  · cases h
    rfl
  · cases h
  · split at h
    · cases h
    · cases h
    · cases h
      rfl
    · cases h
      rfl

theorem sameFiles_of_elsewhere {place : Place} (h : Confined place d d') {loc : Location}
    (hplace : place ≠ .file loc) (contents : Contents) (executable : Bool) :
    d'.node? loc = some (.file contents executable) ↔
      d.node? loc = some (.file contents executable) := by
  rw [h.elsewhere loc hplace]

end Disk

namespace Document

variable {d d' : Disk} {doc : Document} {place : Place} {text : String}

/-- With a short opening bracket only the file itself can fail. -/
theorem create_eq_error {path opener closer : String} {e : ExportError}
    (hshort : opener.toByteArray.size < Writer.capacity)
    (h : create path opener closer d = (.error e, d')) : d' = d ∧ ∃ cause, e = .io path cause := by
  unfold create at h
  rcases hcreate : Disk.create path d with ⟨cause | handle, d₁⟩
  · rw [hcreate] at h
    cases h
    exact ⟨Disk.create_eq_error hcreate, cause, rfl⟩
  · have hput : Writer.put opener.toByteArray (.start handle, d₁) =
        (.ok (), ⟨handle, opener.toByteArray⟩, d₁) := by
      have hfits : ¬ Writer.capacity < ByteArray.empty.size + opener.toByteArray.size := by
        rw [ByteArray.size_empty]
        omega
      unfold Writer.put Writer.take Writer.start
      dsimp only
      rw [if_neg hfits, if_pos hshort, ByteArray.empty_append]
    rw [hcreate, String.toUTF8_eq_toByteArray] at h
    simp only [hput] at h
    cases h

/-- A document that is let go unclosed leaves its text on a file, and nothing on a full device. -/
theorem abandon_of_given (h : Given place text (doc, d)) :
    Confined place d (abandon doc d) ∧ (place = .full → abandon doc d = d) ∧
      ∀ loc, place = .file loc → ∃ executable,
        (abandon doc d).node? loc = some (.file (.bytes text.toByteArray) executable) := by
  obtain ⟨w, hw, hplace, hstuck | hholds⟩ := h
  · have habandon : abandon doc d = d := by
      dsimp only at hw
      simp only [abandon, hw, Writer.flush_stuck hstuck]
    have hfull : place = .full := hplace.symm.trans hstuck.1
    rw [habandon]
    refine ⟨.refl place d, fun _ => rfl, fun loc hfile => ?_⟩
    rw [hfull] at hfile
    cases hfile
  · obtain ⟨w', d', hflush, hplace', ⟨loc', executable, hfile', hnode, -⟩, -, hconf⟩ :=
      Writer.flush_holds hholds
    have habandon : abandon doc d = d' := by
      dsimp only at hw
      simp only [abandon, hw, hflush]
    have hloc : place = .file loc' := hplace.symm.trans (hplace'.symm.trans hfile')
    rw [habandon]
    rw [hplace] at hconf
    refine ⟨hconf, fun hfull => ?_, fun loc hfile => ?_⟩
    · rw [hloc] at hfull
      cases hfull
    · rw [hloc] at hfile
      cases hfile
      exact ⟨executable, hnode⟩

end Document

namespace Documents

variable {folder : String} {d d' : Disk} {e : ExportError}

theorem mappingPath_ne_edgesPath (folder : String) : mappingPath folder ≠ edgesPath folder := by
  have hnames : mappingName ≠ edgesName := by decide
  unfold mappingPath edgesPath Path.join
  split_ifs
  · exact hnames
  · exact fun h => hnames (String.append_right_inj _ |>.mp h)
  · exact fun h => hnames (String.append_right_inj _ |>.mp h)

theorem prepareFolder_sameFiles (folder : String) (d : Disk) :
    d.SameFiles (prepareFolder folder d).2 := by
  unfold prepareFolder
  split_ifs
  · exact .refl d
  · exact Disk.createFolders_sameFiles d folder

theorem prepareFolder_error (h : (prepareFolder folder d).1 = .error e) :
    ∃ fault, e = .configuration fault := by
  unfold prepareFolder at h
  split_ifs at h
  · cases h
    exact ⟨_, rfl⟩
  · cases hresult : (Disk.createFolders folder d).1 with
    | error cause =>
      simp only [Action.mapError, hresult, Except.mapError, Except.error.injEq] at h
      exact ⟨_, h.symm⟩
    | ok _ => simp [Action.mapError, hresult, Except.mapError] at h

theorem json?_of_opener {path : String} {loc : Location} {executable : Bool}
    (hleads : d.LeadsTo path (.file loc))
    (hnode : d.node? loc = some (.file (.bytes "\x7b".toByteArray) executable)) :
    d.json? path = none := by
  have hlocate : d.locate path = .ok (.at loc) := hleads
  have hbytes : d.bytes? path = some "\x7b".toByteArray := by
    simp [Disk.bytes?, Disk.lookup?, hlocate, hnode]
  rw [Disk.json?, hbytes]
  decide +kernel

/-- The method document has been emptied down to its opening bracket, and nothing else has changed. -/
structure Torn (folder : String) (d d' : Disk) (place : Place) : Prop where
  leads : d'.LeadsTo (mappingPath folder) place
  elsewhere : ∀ loc, place ≠ .file loc → ∀ contents executable,
    d'.node? loc = some (.file contents executable) ↔ d.node? loc = some (.file contents executable)
  opener : ∀ loc, place = .file loc → ∃ executable,
    d'.node? loc = some (.file (.bytes "\x7b".toByteArray) executable)
  unterminated : ∀ loc, place = .file loc → d'.json? (mappingPath folder) = none

theorem openIn_error (h : openIn folder d = (.error e, d')) :
    d' = d ∧ (∃ cause, e = .io (mappingPath folder) cause) ∨
      ∃ place, Torn folder d d' place ∧ ∃ cause, e = .io (edgesPath folder) cause := by
  have hshort : "\x7b".toByteArray.size < Writer.capacity := by decide
  have hshort' : "[".toByteArray.size < Writer.capacity := by decide
  unfold openIn at h
  rcases hmapping : Document.create (Path.join folder mappingName) "\x7b" "\x7d" d with
    ⟨f | mapping, d₁⟩
  · rw [hmapping] at h
    cases h
    exact .inl (Document.create_eq_error hshort hmapping)
  rcases hedges : Document.create (Path.join folder edgesName) "[" "]" d₁ with ⟨f | edges, d₂⟩
  · simp only [hmapping, hedges, Prod.mk.injEq, Except.error.injEq] at h
    obtain ⟨rfl, rfl⟩ := h
    obtain ⟨rfl, hcause⟩ := Document.create_eq_error hshort' hedges
    obtain ⟨place, hholds, hconf⟩ :=
      Document.create_holds (mappingShape folder) (by simp [mappingShape]) hmapping
    obtain ⟨hconf', -, hopener⟩ := Document.abandon_of_given hholds.given
    have hleads := hconf'.entries.leadsTo hholds.leads
    refine .inr ⟨place, ⟨hleads, ?_, hopener, ?_⟩, hcause⟩
    · exact fun loc hp => Disk.sameFiles_of_elsewhere (hconf.trans hconf') hp
    · rintro loc rfl
      obtain ⟨executable, hnode⟩ := hopener loc rfl
      exact json?_of_opener hleads hnode
  · simp [hmapping, hedges] at h

theorem Torn.of_sameFiles {d₁ : Disk} {place : Place} (hsame : d.SameFiles d₁)
    (h : Torn folder d₁ d' place) : Torn folder d d' place :=
  ⟨h.leads, fun loc hplace contents executable =>
    (h.elsewhere loc hplace contents executable).trans (hsame loc contents executable),
    h.opener, h.unterminated⟩

/-- Documents that cannot be opened leave all files as they were, unless it is the edge document that
cannot be created: what the method document held is then lost. -/
theorem create_failure (h : create folder d = (.error e, d')) :
    ((∀ cause, e ≠ .io (edgesPath folder) cause) → d.SameFiles d') ∧
      ∀ cause, e = .io (edgesPath folder) cause → ∃ place, Torn folder d d' place := by
  have hsame := prepareFolder_sameFiles folder d
  unfold create at h
  rcases hfolder : prepareFolder folder d with ⟨f | _, d₁⟩
  · obtain ⟨fault, rfl⟩ := prepareFolder_error (congrArg Prod.fst hfolder)
    rw [hfolder] at h hsame
    cases h
    exact ⟨fun _ => hsame, fun _ he => by cases he⟩
  · rw [hfolder] at h hsame
    rcases openIn_error h with ⟨rfl, cause, rfl⟩ | ⟨place, htorn, cause, rfl⟩
    · refine ⟨fun _ => hsame, fun cause' he => ?_⟩
      have hpath := (ExportError.io.inj he).1
      exact absurd hpath (mappingPath_ne_edgesPath folder)
    · exact ⟨fun hother => absurd rfl (hother cause), fun _ _ => ⟨place, htorn.of_sameFiles hsame⟩⟩

def takenDisk : Disk :=
  ⟨[(["w"], .folder), (["w", "mapping.json"], .file (.bytes "\x7b\x7d".toByteArray) false),
    (["w", "edges.json"], .folder)], ["w"]⟩

theorem create_takenDisk :
    ∃ d', create "." takenDisk = (.error (.io (edgesPath ".") .isFolder), d') ∧
      d'.bytes? (mappingPath ".") = some "\x7b".toByteArray := by
  have hrun : (match create "." takenDisk with
      | (.error e, d') => decide (e = .io (edgesPath ".") .isFolder ∧
          d'.bytes? (mappingPath ".") = some "\x7b".toByteArray)
      | _ => false) = true := by decide +kernel
  rcases hcreate : create "." takenDisk with ⟨e | docs, d'⟩
  · rw [hcreate] at hrun
    obtain ⟨rfl, hbytes⟩ := of_decide_eq_true hrun
    exact ⟨d', rfl, hbytes⟩
  · rw [hcreate] at hrun
    cases hrun

theorem create_failure_takenDisk :
    ∃ d', create "." takenDisk = (.error (.io (edgesPath ".") .isFolder), d') ∧
      ∃ place, Torn "." takenDisk d' place := by
  obtain ⟨d', hcreate, -⟩ := create_takenDisk
  exact ⟨d', hcreate, (create_failure hcreate).2 .isFolder rfl⟩

/-- A whole method document is cut down to a bracket although no edge document could be opened. -/
theorem failed_create_loses_mapping :
    ∃ e d', create "." takenDisk = (.error e, d') ∧
      (takenDisk.json? (mappingPath ".")).isSome ∧ (d'.json? (mappingPath ".")).isNone ∧
      takenDisk.bytes? (mappingPath ".") ≠ d'.bytes? (mappingPath ".") := by
  obtain ⟨d', hcreate, hbytes⟩ := create_takenDisk
  refine ⟨_, d', hcreate, by decide +kernel, ?_, ?_⟩
  · rw [Disk.json?, hbytes]
    decide +kernel
  · rw [hbytes]
    decide +kernel

end Documents
end CallGraph
