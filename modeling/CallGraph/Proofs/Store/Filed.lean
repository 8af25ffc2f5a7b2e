import CallGraph.Proofs.Disk.Extends
import CallGraph.Proofs.Store.Requests
import CallGraph.Sink.Store

/-! A database whose tables are in the file that a path leads to, one request after another. -/
namespace CallGraph

def Contents.tables? : Contents → Option Tables
  | .database tables? => tables?
  | .bytes _ => none

namespace Database

variable {path : String} {loc : Location} {tables? : Option Tables} {s : Database × Disk} {d d' : Disk}
  {db : Database}

/-- A path of a file: neither a name of a database that is gone when it is closed, nor an address that
starts with a scheme and may lead to another file or to none. -/
def NamesFile (path : String) : Prop :=
  path ≠ "" ∧ path ≠ ":memory:" ∧ ¬ "file:".toList <+: path.toList

structure Filed (path : String) (loc : Location) (tables? : Option Tables) (s : Database × Disk) :
    Prop where
  database : s.1 = ⟨.file loc, .opened tables?⟩
  leads : s.2.locate path = .ok (.at loc)
  file : ∃ contents executable, s.2.node? loc = some (.file contents executable)
  tables : s.2.tables? path = tables?

private theorem tables?_of_node {contents : Contents} {executable : Bool}
    (hleads : d.locate path = .ok (.at loc)) (hnode : d.node? loc = some (.file contents executable)) :
    d.tables? path = contents.tables? := by
  rw [Disk.tables?, Disk.lookup?, hleads]
  dsimp only
  rw [hnode]
  cases contents <;> rfl

/-- Tables that are saved are those that the path then leads to. -/
theorem Filed.save (h : Filed path loc tables? s) (tables?' : Option Tables) :
    Filed path loc tables?' (⟨.file loc, .opened tables?'⟩, Database.save loc tables?' s.2) := by
  obtain ⟨contents, executable, hnode⟩ := h.file
  have hsaved : Database.save loc tables?' s.2 =
      s.2.put loc (.file (.database tables?') executable) := by
    simp only [Database.save, hnode]
  have hleads := (Disk.extends_put_of_file (.database tables?') hnode).locate_at h.leads
  have hnode' := Disk.node?_put_self s.2 (.file (.database tables?') executable)
    (Disk.ne_nil_of_node? hnode (by simp))
  rw [hsaved]
  exact ⟨rfl, hleads, ⟨_, _, hnode'⟩, tables?_of_node hleads hnode'⟩

/-- What a request does to the tables, it does to those in the file. -/
theorem Filed.store (h : Filed path loc tables? s) {r : Request} {result : Except StoreError Unit}
    {tables?' : Option Tables}
    (hr : Embedded.store r (.opened tables?) = (result, .opened tables?')) :
    ∃ s', Database.store r s = (result, s') ∧ Filed path loc tables?' s' := by
  obtain ⟨db, d⟩ := s
  obtain rfl : db = ⟨.file loc, .opened tables?⟩ := h.database
  by_cases hsame : tables?' = tables?
  · subst hsame
    exact ⟨_, by simp [Database.store, hr], h⟩
  · exact ⟨_, by simp [Database.store, hr, hsame], h.save tables?'⟩

theorem Filed.close (h : Filed path loc tables? s) :
    ∃ s', Database.store .close s = (.ok (), s') ∧ s'.2 = s.2 := by
  obtain ⟨db, d⟩ := s
  obtain rfl : db = ⟨.file loc, .opened tables?⟩ := h.database
  exact ⟨_, rfl, rfl⟩

/-- What is opened at the path of a file has its tables there, or it lies on a full device. -/
theorem filed_of_openAt (hfile : NamesFile path) (h : openAt path d = (.ok db, d')) :
    db = ⟨.full, .opened none⟩ ∨ ∃ loc tables?, Filed path loc tables? (db, d') := by
  unfold openAt at h
  obtain ⟨hempty, hmemory, -⟩ := hfile
  rw [if_neg (by simpa using ⟨hempty, hmemory⟩)] at h
  split at h
  · cases h
  cases hlocate : d.locate path with
  | error e =>
    rw [hlocate] at h
    cases h
  | ok target =>
    rw [hlocate] at h
    cases target with
    | absent folder name =>
      cases h
      right
      have hnode := Disk.node?_put_self d (.file (.bytes .empty) false)
        (show folder ++ [name] ≠ [] by simp)
      have hleads := (Disk.extends_put_of_absent (.file (.bytes .empty) false)
        (Disk.free_of_locate hlocate)).locate hlocate (by rintro _ _ ⟨⟩; exact ⟨_, _, hnode⟩)
      exact ⟨_, _, rfl, hleads, ⟨_, _, hnode⟩, tables?_of_node hleads hnode⟩
    | «at» loc =>
      dsimp only at h
      split at h
      · rename_i tables? executable hnode
        cases h
        exact .inr ⟨loc, tables?, rfl, hlocate, ⟨_, _, hnode⟩, tables?_of_node hlocate hnode⟩
      · rename_i data executable hnode
        split at h <;> cases h
        exact .inr ⟨loc, none, rfl, hlocate, ⟨_, _, hnode⟩, tables?_of_node hlocate hnode⟩
      · cases h
        exact .inl rfl
      · cases h

/-- A database that can be prepared has empty tables then, whatever was in them before. -/
theorem filed_of_prepare {db' : Database × Disk} {notes : List Note}
    (hopened : s.1 = ⟨.full, .opened none⟩ ∨ ∃ loc tables?, Filed path loc tables? s)
    (h : StoreSink.prepare Database.store s = ((.ok (), notes), db')) :
    ∃ loc, Filed path loc (some .empty) db' := by
  unfold StoreSink.prepare at h
  rcases hopened with hfull | ⟨loc, tables?, hfiled⟩
  · obtain ⟨db, d⟩ := s
    subst hfull
    cases h
  · obtain ⟨s₁, hclear, hfiled₁⟩ := hfiled.store (Embedded.store_clear tables?)
    have hempty : Embedded.store .schema (.opened none) = (.ok (), .opened (some .empty)) := rfl
    obtain ⟨s₂, hschema, hfiled₂⟩ := hfiled₁.store hempty
    simp only [hclear, hschema] at h
    cases h
    exact ⟨loc, hfiled₂⟩

end Database
end CallGraph
