import CallGraph.Disk.Writer
import CallGraph.Proofs.Disk.Extends

/-! What reaches a place from its opening on: all of it on a file, and nothing on a full device. -/
namespace CallGraph.Disk

variable {d d' d'' : Disk} {loc : Location}

/-- Only the contents at a place have changed. -/
structure Confined (p : Place) (d d' : Disk) : Prop where
  entries : d.Extends d'
  elsewhere : ∀ loc, p ≠ .file loc → d'.node? loc = d.node? loc

theorem Confined.refl (p : Place) (d : Disk) : Confined p d d :=
  ⟨.refl d, fun _ _ => rfl⟩

theorem Confined.trans {p : Place} (h : Confined p d d') (h' : Confined p d' d'') :
    Confined p d d'' :=
  ⟨h.entries.trans h'.entries,
    fun loc hp => (h'.elsewhere loc hp).trans (h.elsewhere loc hp)⟩

theorem confined_put {contents : Contents} {executable : Bool} (contents' : Contents)
    (h : d.node? loc = some (.file contents executable)) :
    Confined (.file loc) d (d.put loc (.file contents' executable)) :=
  ⟨extends_put_of_file contents' h,
    fun loc' hp => node?_put_of_ne d _ fun heq => hp (by rw [heq])⟩

def Handle.AtEnd (h : Handle) (d : Disk) (data : ByteArray) : Prop :=
  ∃ loc executable, h.place = .file loc ∧
    d.node? loc = some (.file (.bytes data) executable) ∧ h.offset = data.size

theorem write_atEnd {h : Handle} {data : ByteArray} (hend : h.AtEnd d data) (bytes : ByteArray) :
    ∃ h' d', write h bytes d = (.ok h', d') ∧ h'.place = h.place ∧ h'.AtEnd d' (data ++ bytes) ∧
      Confined h.place d d' := by
  obtain ⟨loc, executable, hplace, hnode, hoffset⟩ := hend
  have hover : overwrite data h.offset bytes = data ++ bytes := by
    rw [overwrite, if_pos hoffset]
  refine ⟨{ h with offset := h.offset + bytes.size },
    d.put loc (.file (.bytes (data ++ bytes)) executable), ?_, rfl, ?_, ?_⟩
  · simp only [write, hplace, hnode, hover]
  · refine ⟨loc, executable, hplace, ?_, ?_⟩
    · exact node?_put_self d _ (ne_nil_of_node? hnode (by simp))
    · simp only [hoffset, ByteArray.size_append]
  · rw [hplace]
    exact confined_put _ hnode

theorem write_full {h : Handle} (hplace : h.place = .full) (bytes : ByteArray) (d : Disk) :
    write h bytes d = (.error .noSpace, d) := by
  simp only [write, hplace]

def LeadsTo (d : Disk) (path : String) : Place → Prop
  | .file loc => d.locate path = .ok (.at loc)
  | .full => ∃ loc, d.locate path = .ok (.at loc) ∧ d.node? loc = some .fullDevice

theorem Extends.leadsTo (h : d.Extends d') {path : String} {place : Place}
    (hlead : d.LeadsTo path place) : d'.LeadsTo path place := by
  cases place with
  | file loc => exact h.locate_at hlead
  | full =>
    obtain ⟨loc, hlocate, hnode⟩ := hlead
    exact ⟨loc, h.locate_at hlocate, h.fullDevice hnode⟩

def isFullDevice (d : Disk) (path : String) : Bool :=
  match d.lookup? path with
  | some .fullDevice => true
  | _ => false

/-- An opened place is where its path leads, and an opened file is empty. -/
theorem create_eq_ok {path : String} {h : Handle} (hcreate : create path d = (.ok h, d')) :
    d'.LeadsTo path h.place ∧ Confined h.place d d' ∧ (h.place = .full ∨ h.AtEnd d' .empty) := by
  unfold create at hcreate
  cases hlocate : d.locate path with
  | error e => simp [hlocate] at hcreate
  | ok target =>
    rw [hlocate] at hcreate
    cases target with
    | absent folder name =>
      cases hcreate
      have hne : folder ++ [name] ≠ [] := by simp
      have hnode := node?_put_self d (.file (.bytes .empty) false) hne
      have hext := extends_put_of_absent (.file (.bytes .empty) false) (free_of_locate hlocate)
      refine ⟨?_, ⟨hext, ?_⟩, .inr ⟨_, _, rfl, hnode, rfl⟩⟩
      · refine hext.locate hlocate fun folder' name' heq => ?_
        cases heq
        exact ⟨_, _, hnode⟩
      · intro loc' hp
        exact node?_put_of_ne d _ fun heq => hp (by rw [heq])
    | «at» loc =>
      dsimp only at hcreate
      split at hcreate
      · rename_i contents executable hnode
        cases hcreate
        have hconf := confined_put (.bytes .empty) hnode
        have hself := node?_put_self d (.file (.bytes .empty) executable)
          (ne_nil_of_node? hnode (by simp))
        exact ⟨hconf.entries.locate_at hlocate, hconf, .inr ⟨_, _, rfl, hself, rfl⟩⟩
      · rename_i hnode
        cases hcreate
        exact ⟨⟨loc, hlocate, hnode⟩, .refl _ d, .inl rfl⟩
      · cases hcreate
      · cases hcreate

private theorem isEmpty_iff {data : ByteArray} : data.isEmpty = true ↔ data = .empty := by
  rw [← ByteArray.size_eq_zero_iff]
  exact beq_iff_eq

namespace Writer

variable {w : Writer} {data bytes : ByteArray}

/-- The bytes on file and those held back are what has been taken. -/
def Holds (w : Writer) (d : Disk) (data : ByteArray) : Prop :=
  ∃ settled, w.handle.AtEnd d settled ∧ settled ++ w.buffer = data

theorem flush_holds (h : w.Holds d data) :
    ∃ w' d', flush (w, d) = (.ok (), w', d') ∧ w'.handle.place = w.handle.place ∧
      w'.handle.AtEnd d' data ∧ w'.buffer = .empty ∧ Confined w.handle.place d d' := by
  obtain ⟨settled, hend, hdata⟩ := h
  unfold flush
  by_cases hempty : w.buffer.isEmpty
  · have hbuffer := isEmpty_iff.mp hempty
    rw [hbuffer, ByteArray.append_empty] at hdata
    subst hdata
    refine ⟨w, d, by simp [hempty], rfl, hend, hbuffer, .refl _ d⟩
  · obtain ⟨h', d', hwrite, hplace, hend', hconf⟩ := write_atEnd hend w.buffer
    rw [hdata] at hend'
    exact ⟨⟨h', .empty⟩, d', by simp [hempty, hwrite], hplace, hend', rfl, hconf⟩

theorem take_holds (h : w.Holds d data) (bytes : ByteArray) (hfit : bytes.size < capacity ∨ w.buffer = .empty) :
    ∃ w' d', take bytes (w, d) = (.ok (), w', d') ∧ w'.handle.place = w.handle.place ∧
      w'.Holds d' (data ++ bytes) ∧ Confined w.handle.place d d' := by
  obtain ⟨settled, hend, hdata⟩ := h
  unfold take
  by_cases hsmall : bytes.size < capacity
  · refine ⟨{ w with buffer := w.buffer ++ bytes }, d, by simp [hsmall], rfl, ⟨settled, hend, ?_⟩,
      .refl _ d⟩
    rw [← hdata, ByteArray.append_assoc]
  · have hbuffer := hfit.resolve_left hsmall
    rw [hbuffer, ByteArray.append_empty] at hdata
    subst hdata
    obtain ⟨h', d', hwrite, hplace, hend', hconf⟩ := write_atEnd hend bytes
    refine ⟨{ w with handle := h' }, d', by simp [hsmall, hwrite], hplace, ⟨_, hend', ?_⟩, hconf⟩
    rw [hbuffer, ByteArray.append_empty]

theorem put_holds (h : w.Holds d data) (bytes : ByteArray) :
    ∃ w' d', put bytes (w, d) = (.ok (), w', d') ∧ w'.handle.place = w.handle.place ∧
      w'.Holds d' (data ++ bytes) ∧ Confined w.handle.place d d' := by
  unfold put
  by_cases hover : capacity < w.buffer.size + bytes.size
  · obtain ⟨w', d', hflush, hplace, hend, hbuffer, hconf⟩ := flush_holds h
    have h' : w'.Holds d' data := ⟨data, hend, by rw [hbuffer, ByteArray.append_empty]⟩
    obtain ⟨w'', d'', htake, hplace', h'', hconf'⟩ := take_holds h' bytes (.inr hbuffer)
    rw [hplace] at hconf'
    refine ⟨w'', d'', ?_, hplace'.trans hplace, h'', hconf.trans hconf'⟩
    simp only [hover, if_true, Action.andThen, hflush, htake]
  · have hfit : bytes.size < capacity ∨ w.buffer = .empty := by
      by_cases hsmall : bytes.size < capacity
      · exact .inl hsmall
      · right
        have hzero : w.buffer.size = 0 := by omega
        exact ByteArray.size_eq_zero_iff.mp hzero
    obtain ⟨w', d', htake, hplace, h', hconf⟩ := take_holds h bytes hfit
    exact ⟨w', d', by simp only [hover, if_false, htake], hplace, h', hconf⟩

/-- A full device takes nothing, and something is held back from it. -/
def Stuck (w : Writer) : Prop :=
  w.handle.place = .full ∧ w.buffer ≠ .empty

theorem flush_stuck (h : w.Stuck) (d : Disk) : flush (w, d) = (.error .noSpace, w, d) := by
  have hempty : ¬ w.buffer.isEmpty := fun hb => h.2 (isEmpty_iff.mp hb)
  simp only [flush, if_neg hempty, write_full h.1]

theorem put_stuck (h : w.Stuck) (bytes : ByteArray) (d : Disk) :
    ∃ result w', put bytes (w, d) = (result, w', d) ∧ w'.Stuck ∧
      (result = .ok () ∨ result = .error .noSpace) := by
  unfold put
  by_cases hover : capacity < w.buffer.size + bytes.size
  · exact ⟨.error .noSpace, w, by simp only [hover, if_true, Action.andThen, flush_stuck h], h,
      .inr rfl⟩
  · unfold take
    by_cases hsmall : bytes.size < capacity
    · refine ⟨.ok (), { w with buffer := w.buffer ++ bytes }, by simp [hover, hsmall], ⟨h.1, ?_⟩,
        .inl rfl⟩
      have hne := h.2
      simp only [ne_eq, ← ByteArray.size_eq_zero_iff, ByteArray.size_append] at hne ⊢
      omega
    · exact ⟨.error .noSpace, w, by simp [hover, hsmall, write_full h.1], h, .inr rfl⟩

/-- The first bytes for a full device are held back, if they are taken at all. -/
theorem put_start_full {handle : Handle} (hplace : handle.place = .full) (hbytes : bytes ≠ .empty)
    (hput : put bytes (start handle, d) = (.ok (), w, d')) : w.Stuck ∧ d' = d := by
  by_cases hover : capacity < bytes.size
  · have hlarge : ¬ bytes.size < capacity := by omega
    have hrefused : put bytes (start handle, d) = (.error .noSpace, start handle, d) := by
      simp [put, start, Action.andThen, flush, take, hover, hlarge, write_full hplace,
        ByteArray.isEmpty]
    rw [hrefused] at hput
    cases hput
  · by_cases hsmall : bytes.size < capacity
    · have hheld : put bytes (start handle, d) = (.ok (), ⟨handle, bytes⟩, d) := by
        simp [put, start, take, hover, hsmall]
      rw [hheld] at hput
      cases hput
      exact ⟨⟨hplace, hbytes⟩, rfl⟩
    · have hrefused : put bytes (start handle, d) = (.error .noSpace, start handle, d) := by
        simp [put, start, take, hover, hsmall, write_full hplace]
      rw [hrefused] at hput
      cases hput

end Writer
end CallGraph.Disk
