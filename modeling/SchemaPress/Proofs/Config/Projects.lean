import SchemaPress.Proofs.Config.Settings
import SchemaPress.Proofs.Text.ByteOrder

/-!
# The projects of a configuration

The names of the projects come in the order of their bytes, whatever the order of the projects
(`perm_projectNames`, `pairwise_projectNames`), and each name stands for its project
(`project?_of_mem`, `exists_project?`).
-/

namespace SchemaPress.Config

variable {c : Config} {name : String}

theorem perm_projectNames (c : Config) : c.projectNames.Perm (c.projects.map (·.1)) :=
  List.mergeSort_perm _ _

/-- If the names are distinct, `projectNames` is strictly increasing. -/
theorem pairwise_projectNames (h : (c.projects.map (·.1)).Nodup) :
    c.projectNames.Pairwise (· < ·) :=
  Text.pairwise_mergeSort h

/-- `projectNames` does not change names that are strictly increasing. -/
theorem projectNames_of_pairwise (h : (c.projects.map (·.1)).Pairwise (· < ·)) :
    c.projectNames = c.projects.map (·.1) :=
  List.mergeSort_of_pairwise
    (h.imp fun hab => decide_eq_true (String.not_lt.1 (String.lt_asymm hab)))

theorem mem_of_project? {project : Project} (h : c.project? name = some project) :
    (name, project) ∈ c.projects := by
  obtain ⟨before, after, hprojects, -⟩ := List.lookup_eq_some_iff.1 h
  rw [hprojects]
  simp

/-- If the names are distinct, `project?` finds every project under its name. -/
theorem project?_of_mem (h : (c.projects.map (·.1)).Nodup) {p : String × Project}
    (hp : p ∈ c.projects) : c.project? p.1 = some p.2 :=
  (Settings.lookup_eq_some_iff h).2 hp

theorem exists_project? (h : name ∈ c.projectNames) :
    ∃ project, c.project? name = some project := by
  obtain ⟨p, hp, rfl⟩ := List.mem_map.1 (c.perm_projectNames.mem_iff.1 h)
  rw [← Option.isSome_iff_exists]
  exact List.lookup_isSome_iff.2 ⟨p, hp, BEq.rfl⟩

end SchemaPress.Config
