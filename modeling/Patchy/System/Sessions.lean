import Patchy.Session.Search
import Patchy.System.Permanence

set_option autoImplicit false

namespace Patchy

namespace System

def SessionsPrepared (platform : Platform) (system : System) : Prop :=
  ∀ id session, system.sessions id = some session → ∀ contents,
    (PatchSession.preparing platform).Reachable ⟨session, contents⟩

theorem SessionsPrepared.setSession {platform : Platform} {system : System}
    (prepared : SessionsPrepared platform system) (id : Nat) {session : Option PatchSession}
    (alone : ∀ found, session = some found → ∀ contents,
      (PatchSession.preparing platform).Reachable ⟨found, contents⟩) :
    SessionsPrepared platform (system.setSession id session) := by
  intro other found live contents
  rcases setSession_sessions live with ⟨-, new⟩ | ⟨-, old⟩
  · exact alone found new contents
  · exact prepared other found old contents

theorem step_sessionsPrepared {platform : Platform} {system : System} (prepared : SessionsPrepared platform system)
    (operation : Operation) : SessionsPrepared platform (system.step platform operation).2 := by
  cases operation with
  | create id =>
    cases live : system.sessions id with
    | some session => simpa only [step, live] using prepared
    | none =>
      simp only [step, live]
      refine prepared.setSession id fun found new contents => .start ?_
      exact (Option.some.inj new).symm
  | drop id => exact prepared.setSession id fun found gone => by contradiction
  | prepare id oracle preparation =>
    cases live : system.sessions id with
    | none => simpa only [step, live] using prepared
    | some session =>
      simp only [step, live]
      have moved := PatchSession.reachable_prepare oracle preparation
        (prepared id session live system.process.memory)
      refine prepared.setSession id fun found same contents => ?_
      obtain rfl := Option.some.inj same
      exact @Machine.Reachable.step _ _ (PatchSession.preparing platform) _ (.interfere contents) moved trivial
  | installPermanently id environment =>
    cases live : system.sessions id with
    | none => simpa only [step, live] using prepared
    | some session =>
      simp only [step, live]
      exact prepared.setSession id fun found gone => by contradiction

theorem reachable_recorded_inSpace {platform : Platform} {memory : ProcessMemory} {system : System}
    (reachable : (machine platform memory).Reachable system) {base : Nat} (owns : system.Owns base none) :
    base + (platform.pageSize - 1) ≤ usizeMax := by
  have both := reachable.invariant (fun system => SessionsPrepared platform system ∧
    ∀ base, system.Owns base none → base + (platform.pageSize - 1) ≤ usizeMax) ?_ ?_
  · exact both.2 base owns
  · rintro system ⟨protection, rfl⟩
    refine ⟨fun id session live => by simp [initial] at live, fun base => ?_⟩
    rintro ⟨set, member, -⟩
    exact absurd member List.not_mem_nil
  · rintro system operation ⟨prepared, inSpace⟩ -
    refine ⟨step_sessionsPrepared prepared operation, fun base owns => ?_⟩
    rcases owns_step owns with earlier | ⟨id, session, live, member⟩
    · exact inSpace base earlier
    · exact PatchSession.reachable_inSpace (prepared id session live system.process.memory) base member

end System

end Patchy
