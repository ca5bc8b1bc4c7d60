import Mathlib.Data.List.TakeWhile
import SpnegoRealm.Principal

/-! # What stripping realms keeps apart

A stripped name is never empty (`SpnegoRealm.Principal.stripRealm_ne_empty`). Two names that do not
start with an at sign are stripped to the same principal if and only if they agree before their first
at signs (`SpnegoRealm.Principal.stripRealm_eq_iff`). A name that starts with an at sign is kept whole,
so what follows this at sign matters for it.
-/

namespace SpnegoRealm.Principal

variable {name other : String}

/-- The text of a name before its first at sign, which is the whole name if there is none. -/
def beforeAt (name : String) : List Char := name.toList.takeWhile (· != '@')

private theorem takeWhile_ne_nil {text : List Char} (filled : text ≠ [])
    (plain : text.head? ≠ some '@') :
    text.takeWhile (· != '@') ≠ [] := by
  cases text with
  | nil => exact (filled rfl).elim
  | cons first rest =>
      have other : first ≠ '@' := by
        rintro rfl
        exact plain rfl
      rw [List.takeWhile_cons, if_pos (bne_iff_ne.mpr other)]
      exact List.cons_ne_nil _ _

/-- Stripping keeps the text before the first at sign of a name that does not start with one. -/
theorem toList_stripRealm (plain : name.toList.head? ≠ some '@') :
    (stripRealm true name).toList = beforeAt name := by
  unfold stripRealm account? beforeAt
  rw [if_pos rfl]
  by_cases marked : name.toList.contains '@' = true
  · have filled : name.toList ≠ [] := by
      intro empty
      rw [empty] at marked
      cases marked
    have kept := takeWhile_ne_nil filled plain
    rw [if_pos marked]
    cases account : name.toList.takeWhile (· != '@') with
    | nil => exact (kept account).elim
    | cons first rest => exact String.toList_ofList
  · rw [if_neg marked]
    refine (List.takeWhile_eq_self_iff.mpr fun c member => ?_).symm
    rw [bne_iff_ne]
    rintro rfl
    exact marked (List.contains_iff_mem.mpr member)

/-- Without their realms, two names are the same if and only if they agree before the sign. -/
theorem stripRealm_eq_iff (plain : name.toList.head? ≠ some '@')
    (otherPlain : other.toList.head? ≠ some '@') :
    stripRealm true name = stripRealm true other ↔ beforeAt name = beforeAt other := by
  rw [← String.toList_inj, toList_stripRealm plain, toList_stripRealm otherPlain]

/-- No name is stripped to nothing. -/
theorem stripRealm_ne_empty (strip : Bool) (filled : name ≠ "") : stripRealm strip name ≠ "" := by
  unfold stripRealm account?
  split
  next =>
    split
    next account found =>
      split at found
      next =>
        split at found
        next => cases found
        next kept =>
          obtain rfl := Option.some.inj found
          intro empty
          exact kept (String.ofList_eq_empty_iff.mp empty)
      next => cases found
    next => exact filled
  next => exact filled

end SpnegoRealm.Principal
