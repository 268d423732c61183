import Mathlib.Data.List.Basic
import RayTracer.Picture.Pixmap

/-! # What a sink receives

A sink takes what it has room for and then nothing. So of a text written in chunks it has a prefix
at the end, and which one depends on the text and the room alone, not on the chunks.
-/

namespace RayTracer

namespace Sink

theorem write_eq (s : Sink) (chunk : String) :
    s.write chunk = (⟨s.room - chunk.length, s.received ++ chunk.toList.take s.room⟩,
      if chunk.length ≤ s.room then .ok () else .error .full) := by
  have left : s.room - (chunk.toList.take s.room).length = s.room - chunk.length := by
    rw [List.length_take, String.length_toList]
    omega
  rw [write, left]

theorem take_toList_of_length_le {text : String} {room : ℕ} (fits : text.length ≤ room) :
    text.toList.take room = text.toList :=
  List.take_of_length_le (by rwa [String.length_toList])

theorem writeAll_eq (s : Sink) (chunks : List String) :
    s.writeAll chunks =
      (⟨s.room - (String.join chunks).length,
        s.received ++ (String.join chunks).toList.take s.room⟩,
        if (String.join chunks).length ≤ s.room then .ok () else .error .full) := by
  induction chunks generalizing s with
  | nil => simp [writeAll]
  | cons chunk rest ih =>
    rw [writeAll, write_eq, String.join_cons, String.length_append, String.toList_append]
    by_cases fits : chunk.length ≤ s.room
    · -- the rest meets the room that the chunk leaves
      have split : (chunk.toList ++ (String.join rest).toList).take s.room =
          chunk.toList ++ (String.join rest).toList.take (s.room - chunk.length) := by
        rw [List.take_append, take_toList_of_length_le fits, String.length_toList]
      have both : (String.join rest).length ≤ s.room - chunk.length ↔
          chunk.length + (String.join rest).length ≤ s.room := by omega
      rw [if_pos fits]
      dsimp only
      rw [ih, take_toList_of_length_le fits, split, List.append_assoc, Nat.sub_sub]
      simp only [both]
    · -- nothing of the rest is written, and nothing of it would fit
      have cut :
          (chunk.toList ++ (String.join rest).toList).take s.room = chunk.toList.take s.room :=
        List.take_append_of_le_length (by rw [String.length_toList]; omega)
      rw [if_neg fits, if_neg (by omega), cut]
      dsimp only
      congr 2
      omega

end Sink

theorem Picture.writeTo_of_length_le {p : Picture} {room : ℕ} (enough : p.pixmap.length ≤ room) :
    p.writeTo ⟨room, []⟩ = (⟨room - p.pixmap.length, p.pixmap.toList⟩, .ok ()) := by
  have written :
      Sink.writeAll ⟨room, []⟩ p.chunks = (⟨room - p.pixmap.length, p.pixmap.toList⟩, .ok ()) := by
    rw [Sink.writeAll_eq]
    show (Sink.mk (room - p.pixmap.length) ([] ++ p.pixmap.toList.take room),
      ite (p.pixmap.length ≤ room) _ _) = _
    rw [if_pos enough, Sink.take_toList_of_length_le enough, List.nil_append]
  rw [writeTo, written]

end RayTracer
