import SpnegoRealm.Config
import SpnegoRealm.Proofs.Path
import SpnegoRealm.Proofs.Text.Utf8

/-! # Exported keytabs

The exported value is compared as a text. That makes no difference to a value that is UTF-8: it is
accepted if and only if it names the configured path. A value that is not UTF-8 is shown with
replacement characters first, and then the answer is never the right one for the path that it names
(`SpnegoRealm.Config.exports_are_compared_as_texts`): a path is UTF-8 if and only if the names among
its components are (`SpnegoRealm.Path.isUtf8_iff`).
-/

namespace SpnegoRealm

open Text (IsUtf8)

namespace Path

private theorem isUtf8_pieces_iff (path : Bytes) :
    (∀ piece ∈ pieces path, IsUtf8 piece) ↔ IsUtf8 path := by
  induction path using slash_induction with
  | whole piece whole => rw [pieces_of_not_mem whole, List.forall_mem_singleton]
  | join before after left right =>
      rw [pieces_append_slash, List.forall_mem_append, left, right,
        Text.isUtf8_append_cons_iff (by decide)]

private theorem isUtf8_of_isSpecial {piece : Bytes} (special : IsSpecial piece) : IsUtf8 piece := by
  have one : IsUtf8 [dot] := Text.isUtf8_singleton (by decide)
  rcases special with rfl | rfl | rfl
  · exact Text.isUtf8_nil
  · exact one
  · exact one.append one

/-- A path is a text if and only if its names are. -/
theorem isUtf8_iff (path : Bytes) :
    IsUtf8 path ↔ ∀ name, .name name ∈ components path → IsUtf8 name := by
  rw [← isUtf8_pieces_iff]
  constructor
  · intro texts name member
    exact texts name (name_mem_components_iff.mp member).1
  · intro texts piece member
    by_cases special : IsSpecial piece
    · exact isUtf8_of_isSpecial special
    · exact texts piece (name_mem_components_iff.mpr ⟨member, special⟩)

end Path

namespace Config

/-- An exported value without the marker that may stand in front of it. -/
def withoutMarker (exported : Bytes) : Bytes :=
  if Text.utf8 "FILE:" <+: exported then exported.drop (Text.utf8 "FILE:").length else exported

private theorem withoutMarker_append (path : Bytes) :
    withoutMarker (Text.utf8 "FILE:" ++ path) = path := by
  rw [withoutMarker, if_pos (List.prefix_append _ _), List.drop_left]

private theorem isUtf8_of_withoutMarker {exported : Bytes}
    (path : IsUtf8 (withoutMarker exported)) :
    IsUtf8 exported := by
  unfold withoutMarker at path
  split at path
  next marked =>
    obtain ⟨rest, rfl⟩ := marked
    rw [List.drop_left] at path
    exact IsUtf8.append ⟨_, rfl⟩ path
  next => exact path

/-- The bytes that a value is shown as. -/
def shown (exported : Bytes) : Bytes := Text.utf8 (Text.display exported)

private theorem shown_of_isUtf8 {exported : Bytes} (isText : IsUtf8 exported) :
    shown exported = exported := by
  obtain ⟨text, rfl⟩ := isText
  rw [shown, Text.display, Text.ofUtf8Lossy_utf8, String.ofList_toList]

/-- A value names what it shows after its marker. -/
theorem exportedPath_eq (exported : Bytes) :
    exportedPath exported = withoutMarker (shown exported) := by
  have bytes : shown exported = Text.utf8 (String.ofList (Text.ofUtf8Lossy exported)) := rfl
  have marker : Text.utf8 "FILE:" = Text.utf8 (String.ofList exportMarker) := rfl
  unfold exportedPath
  generalize Text.ofUtf8Lossy exported = characters at bytes
  rw [bytes]
  by_cases marked : characters.take exportMarker.length = exportMarker
  · simp only [if_pos marked]
    conv_rhs => rw [← List.take_append_drop exportMarker.length characters, marked]
    rw [String.ofList_append, Text.utf8_append, ← marker, withoutMarker_append]
  · simp only [if_neg marked]
    have unmarked : ¬ Text.utf8 "FILE:" <+: Text.utf8 (String.ofList characters) := by
      rintro ⟨rest, same⟩
      have split : exportMarker ++ Text.ofUtf8Lossy rest = characters := by
        have decoded := congrArg Text.ofUtf8Lossy same
        rw [Text.ofUtf8Lossy_append, Text.ofUtf8Lossy_utf8] at decoded
        exact decoded.trans String.toList_ofList
      exact marked (split ▸ List.take_left)
    rw [withoutMarker, if_neg unmarked]

section Check

variable {config : Config} {keytab : Bytes}

private theorem checkKeytabExport_some (configured : config.acceptorKeytabPath = some keytab)
    (exported : Bytes) : config.checkKeytabExport (some exported) =
      if Path.components (withoutMarker (shown exported)) = Path.components keytab then .ok ()
      else .error (.keytabNotExported keytab (some exported)) := by
  unfold checkKeytabExport require
  simp only [configured, Option.any_some, Path.same, exportedPath_eq, beq_iff_eq]

/-- A variable is accepted if and only if its path, as it is shown, has the components of the
keytab's. -/
theorem checkKeytabExport_eq_ok_iff (configured : config.acceptorKeytabPath = some keytab)
    (exported : Bytes) : config.checkKeytabExport (some exported) = .ok () ↔
      Path.components (withoutMarker (shown exported)) = Path.components keytab := by
  rw [checkKeytabExport_some configured]
  split
  next same => exact iff_of_true rfl same
  next other => exact iff_of_false (fun impossible => by cases impossible) other

end Check

/-- What a value shows is never the path that it names, unless the value is UTF-8. -/
theorem components_ne_of_not_isUtf8 {exported : Bytes} (binary : ¬ IsUtf8 exported) :
    Path.components (withoutMarker (shown exported)) ≠
      Path.components (withoutMarker exported) := by
  intro same
  have text : IsUtf8 (withoutMarker (shown exported)) := by
    rw [← exportedPath_eq]
    exact ⟨_, rfl⟩
  rw [Path.isUtf8_iff, same, ← Path.isUtf8_iff] at text
  exact binary (isUtf8_of_withoutMarker text)

/-- **Exported values are compared as texts.** Without a configured keytab every value is accepted,
and with one a missing value is refused. Otherwise a value is accepted if and only if what it shows,
after the marker, has the components of the configured path. So a value that is UTF-8 is accepted if
and only if the path that it names has these components. But a value that is not UTF-8 is accepted
only for other paths than the one that it names, and there is such a path for each. -/
theorem exports_are_compared_as_texts (config : Config) :
    (config.acceptorKeytabPath = none → ∀ exported, config.checkKeytabExport exported = .ok ()) ∧
    (∀ keytab, config.acceptorKeytabPath = some keytab →
      config.checkKeytabExport none = .error (.keytabNotExported keytab none) ∧
      ∀ exported,
        config.checkKeytabExport (some exported) =
          (if Path.components (withoutMarker (shown exported)) = Path.components keytab then .ok ()
          else .error (.keytabNotExported keytab (some exported))) ∧
        (IsUtf8 exported → (config.checkKeytabExport (some exported) = .ok () ↔
          Path.components (withoutMarker exported) = Path.components keytab)) ∧
        (¬ IsUtf8 exported → config.checkKeytabExport (some exported) = .ok () →
          Path.components (withoutMarker exported) ≠ Path.components keytab)) ∧
    ∀ exported, ¬ IsUtf8 exported → ∃ keytab,
      { config with acceptorKeytabPath := some keytab }.checkKeytabExport (some exported) = .ok () ∧
        Path.components (withoutMarker exported) ≠ Path.components keytab := by
  refine ⟨?unconfigured, ?configured, ?mistaken⟩
  case unconfigured =>
    intro unconfigured exported
    rw [checkKeytabExport, unconfigured]
  case configured =>
    intro keytab configured
    refine ⟨?_, fun exported => ⟨checkKeytabExport_some configured exported, ?_, ?_⟩⟩
    · rw [checkKeytabExport, configured]
      rfl
    · intro isText
      rw [checkKeytabExport_eq_ok_iff configured, shown_of_isUtf8 isText]
    · intro binary accepted same
      rw [checkKeytabExport_eq_ok_iff configured] at accepted
      exact components_ne_of_not_isUtf8 binary (accepted.trans same.symm)
  case mistaken =>
    intro exported binary
    refine ⟨withoutMarker (shown exported), ?_, ?_⟩
    · exact (checkKeytabExport_eq_ok_iff rfl exported).mpr rfl
    · exact (components_ne_of_not_isUtf8 binary).symm

/-- A value that is not UTF-8 is accepted for the path that it shows, which is another one, and
refused for the path that it names. -/
theorem other_keytab_is_accepted :
    checkKeytabExport { acceptorKeytabPath := some (Text.utf8 "/\uFFFD") } (some [0x2F, 0xFF]) =
        .ok () ∧
      Path.components (withoutMarker [0x2F, 0xFF]) ≠ Path.components (Text.utf8 "/\uFFFD") ∧
      checkKeytabExport { acceptorKeytabPath := some [0x2F, 0xFF] } (some [0x2F, 0xFF]) =
        .error (.keytabNotExported [0x2F, 0xFF] (some [0x2F, 0xFF])) := by
  have shows : Path.components (withoutMarker (shown [0x2F, 0xFF])) =
      [.root, .name [0xEF, 0xBF, 0xBD]] := by decide +kernel
  have other : Path.components (Text.utf8 "/\uFFFD") = [.root, .name [0xEF, 0xBF, 0xBD]] := by
    decide +kernel
  have named : Path.components (withoutMarker [0x2F, 0xFF]) = [.root, .name [0xFF]] := by
    decide +kernel
  have configured : Path.components [0x2F, 0xFF] = [.root, .name [0xFF]] := by decide +kernel
  refine ⟨?_, ?_, ?_⟩
  · rw [checkKeytabExport_eq_ok_iff rfl, shows, other]
  · rw [named, other]
    decide
  · rw [checkKeytabExport_some rfl, shows, configured, if_neg (by decide)]

end Config

end SpnegoRealm
