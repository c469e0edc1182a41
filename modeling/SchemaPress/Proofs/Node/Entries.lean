import Mathlib.Data.List.Nodup
import SchemaPress.Node.Entries

/-!
# The keys of a mapping

`Node.put` keeps the place of a key that is there and puts a new one at the end (`map_key_put`), so
the entries of a mapping have different keys (`nodup_map_key_entries`).
-/

namespace SchemaPress.Node

theorem map_key_put (key : String) (node : Node) (es : List Entry) :
    (put key node es).map (·.key) =
      if key ∈ es.map (·.key) then es.map (·.key) else es.map (·.key) ++ [key] := by
  induction es with
  | nil => rfl
  | cons e es ih =>
    rw [put]
    by_cases he : e.key = key
    · rw [if_pos (beq_iff_eq.mpr he), if_pos (by rw [← he]; exact List.mem_cons_self)]
      rw [List.map_cons, List.map_cons, he]
    · rw [if_neg (by simpa using he), List.map_cons, ih, List.map_cons]
      by_cases hkey : key ∈ es.map (·.key)
      · rw [if_pos hkey, if_pos (List.mem_cons_of_mem _ hkey)]
      · have hcons : key ∉ e.key :: es.map (·.key) := by
          rw [List.mem_cons]
          rintro (h | h)
          exacts [he h.symm, hkey h]
        rw [if_neg hkey, if_neg hcons]
        rfl

theorem nodup_map_key_put {key : String} {node : Node} {es : List Entry}
    (h : (es.map (·.key)).Nodup) : ((put key node es).map (·.key)).Nodup := by
  rw [map_key_put]
  split_ifs with hkey
  · exact h
  · exact List.nodup_append.mpr ⟨h, List.nodup_singleton key, fun a ha b hb hab => hkey <| by
      rw [← List.mem_singleton.mp hb, ← hab]; exact ha⟩

theorem nodup_map_key_putPair (anchors : Anchors) {es : List Entry} (pair : Node × Node)
    (h : (es.map (·.key)).Nodup) : ((putPair anchors es pair).map (·.key)).Nodup := by
  unfold putPair
  split
  · exact nodup_map_key_put h
  · exact h

theorem nodup_map_key_foldl_putPair (anchors : Anchors) (pairs : List (Node × Node))
    {es : List Entry} (h : (es.map (·.key)).Nodup) :
    ((pairs.foldl (putPair anchors) es).map (·.key)).Nodup := by
  induction pairs generalizing es with
  | nil => exact h
  | cons pair pairs ih => exact ih (nodup_map_key_putPair anchors pair h)

/-- **The keys of `node.entries` are distinct.** -/
theorem nodup_map_key_entries (anchors : Anchors) (node : Node) :
    ((node.entries anchors).map (·.key)).Nodup := by
  unfold entries
  split
  · exact nodup_map_key_foldl_putPair anchors _ List.nodup_nil
  · exact List.nodup_nil

end SchemaPress.Node
