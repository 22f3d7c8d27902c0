/-
  LineMatch.Proofs.Grammar.Begins — reading grammars and blanks.

  Proved:
  - `Param.begins_read`, `ValueType.begins_read`, `Command.begins_read`: each reader of a part
    of a grammar begins where no word went before, and does not depend on blanks.
  - `Grammar.begins_read`: so does that of grammars.
-/

import LineMatch.Grammar.Reader
import LineMatch.Proofs.Json.Skipped

namespace LineMatch

open LineMatch.Json
open LineMatch.Json.Read

variable {levels : Nat}

/-! ## Actions -/

namespace Action

theorem begins_draftMember (d : Draft) (name : String) : Begins (d.member name) := by
  unfold Draft.member
  split
  · exact begins_string.once.map
  · exact begins_string.orNull.once.map
  · exact begins_skipMember.map

theorem begins_read : Begins (read levels) := by
  refine .record (fun n => ?_) fun n => ?_
  · exact (Begins.object begins_draftMember).bind fun d => follows_required.map
  · refine begins_string.first.bind fun script => ?_
    split
    · exact follows_refuse
    · exact begins_string.orNull.field.map

end Action

/-! ## Types -/

namespace ValueType

theorem begins_draftMember (d : Draft) (name : String) : Begins (Draft.member levels d name) := by
  unfold Draft.member
  split
  · exact begins_string.once.map
  · exact begins_string.orNull.once.map
  · exact begins_variant.once.map
  · exact (follows_colon.from fun _ _ => Apart.outside).bind fun _ => (begins_any levels).map

theorem follows_finish {S : Where} {d : Draft} : Follows S d.finish fun _ => S := by
  refine follows_required.bind fun name => ?_
  split
  · exact .pure fun _ _ => id
  · exact follows_refuse

theorem begins_read : Begins (read levels) := by
  refine follows_apart.bind fun o => ?_
  split
  · exact follows_failNext
  · refine (follows_descend rfl fun n _ => ?_).from fun _ _ => Before.outside
    refine (Begins.object begins_draftMember).bind fun d => follows_finish.bind fun t => ?_
    exact follows_closeObject.bind fun _ => .pure fun _ _ => Apart.outside
  · exact follows_mismatch

end ValueType

/-! ## Parameters -/

namespace Param

variable {nested : Read Param}

theorem begins_nested (h : Begins nested) : Begins (list levels fun _ => nested) := .list fun _ => h

theorem begins_draftMember (h : Begins nested) (d : Draft) (name : String) :
    Begins (Draft.member levels nested d name) := by
  unfold Draft.member
  split
  · exact begins_string.once.map
  · exact begins_string.orNull.once.map
  · exact begins_string.once.map
  · exact begins_variant.once.map
  · exact begins_bool.once.map
  · exact begins_bool.once.map
  · exact begins_string.orNull.once.map
  · exact begins_string.orNull.once.map
  · exact (begins_nested h).once.map
  · exact (begins_nested h).once.map
  · exact begins_skipMember.map

theorem begins_ofArray (h : Begins nested) : Begins (ofArray levels nested) := by
  refine begins_string.first.bind fun name => ?_
  split
  · exact follows_refuse
  refine begins_string.orNull.field.bind fun help => begins_string.field.bind fun type => ?_
  split
  · exact follows_refuse
  refine begins_variant.field.bind fun mode => begins_bool.field.bind fun isOptional => ?_
  refine begins_bool.field.bind fun isOrdered => begins_string.orNull.field.bind fun test => ?_
  refine begins_string.orNull.field.bind fun value => (begins_nested h).field.bind fun alternatives => ?_
  exact (begins_nested h).field.map

theorem begins_readAt (h : Begins nested) : Begins (readAt levels nested) := by
  have hflat : Begins (record levels "struct RawParam"
      (fun inner => do (← object {} (Draft.member inner nested)).finish)
      (fun inner => ofArray inner nested)) := by
    refine .record (fun n => ?_) fun n => begins_ofArray h
    refine (Begins.object (begins_draftMember h)).bind fun d => ?_
    exact follows_required.bind fun name => follows_required.map
  refine hflat.bind fun flat => ?_
  split
  · exact .pure fun _ _ => id
  · exact follows_refuse

theorem begins_read (levels : Nat) : Begins (read levels) := by
  have hnone : Begins (failNext .tooDeep : Read Param) := follows_failNext
  induction levels using Nat.strongRecOn with
  | ind levels ih =>
    match levels with
    | 0 => exact begins_readAt hnone
    | 1 => exact begins_readAt hnone
    | n + 2 => exact begins_readAt (ih n (by omega))

end Param

/-! ## Commands and grammars -/

namespace Command

theorem begins_draftMember (d : Draft) (name : String) : Begins (Draft.member levels d name) := by
  unfold Draft.member
  split
  · exact begins_string.once.map
  · exact begins_string.orNull.once.map
  · exact (Begins.list Param.begins_read).once.map
  · exact (Param.begins_read levels).orNull.once.map
  · exact Action.begins_read.orNull.once.map
  · exact begins_skipMember.map

theorem begins_read (levels : Nat) : Begins (read levels) := by
  refine .record (fun n => ?_) fun n => ?_
  · exact (Begins.object begins_draftMember).bind fun d => follows_required.map
  · refine begins_string.first.bind fun name => ?_
    split
    · exact follows_refuse
    refine begins_string.orNull.field.bind fun help => (Begins.list Param.begins_read).field.bind fun params => ?_
    exact (Param.begins_read n).orNull.field.bind fun args => Action.begins_read.orNull.field.map

end Command

namespace Grammar

theorem begins_draftMember (d : Draft) (name : String) : Begins (Draft.member levels d name) := by
  unfold Draft.member
  split
  · exact (Begins.list fun _ => ValueType.begins_read).once.map
  · exact (Begins.list Command.begins_read).once.map
  · exact begins_skipMember.map

theorem begins_read (levels : Nat) : Begins (read levels) := by
  refine .record (fun n => ?_) fun n => ?_
  · exact (Begins.object begins_draftMember).map
  · refine (Begins.list fun _ => ValueType.begins_read).first.bind fun types => ?_
    exact (Begins.list Command.begins_read).field.map

end Grammar

end LineMatch
