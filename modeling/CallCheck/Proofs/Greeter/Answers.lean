import CallCheck.Greeter.Service
import CallCheck.Proofs.Worker.Answer

/-!
# The answers of the Greeter

What each method of the Greeter answers to a list of requests. The methods that listen to a stream
fail at the first request with the name that makes them fail, and what comes before it is answered
as if nothing had happened.
-/

namespace CallCheck.Greeter

open Session (Metadata)
open Worker (Answers Arrival)

variable {metadata : Metadata} {name : String} {rs : List Request} {k : Nat}

/-- The greetings of a conversation in which some have been greeted before. -/
def greetings (seen : Nat) : List Request → List Reply
  | [] => []
  | r :: rs => ⟨greet r.name, seen + 1⟩ :: greetings (seen + 1) rs

/-- Numbered greetings from a number on. -/
def numberedFrom (name : String) (next : Nat) : Nat → List Reply
  | 0 => []
  | n + 1 => numbered name next :: numberedFrom name (next + 1) n

theorem length_greetings (seen : Nat) (rs : List Request) :
    (greetings seen rs).length = rs.length := by
  induction rs generalizing seen with
  | nil => rfl
  | cons r rs ih => rw [greetings, List.length_cons, ih, List.length_cons]

theorem getLast?_greetings (seen : Nat) (rs : List Request) :
    (greetings seen rs).getLast? =
      rs.getLast?.map fun r ↦ ⟨greet r.name, seen + rs.length⟩ := by
  induction rs generalizing seen with
  | nil => rfl
  | cons r rs ih =>
    rw [greetings, List.getLast?_cons, ih, List.getLast?_cons]
    cases hlast : rs.getLast? with
    | none =>
      obtain rfl := List.getLast?_eq_none_iff.1 hlast
      rfl
    | some last =>
      simp only [Option.map_some, Option.getD_some, List.length_cons, Nat.add_assoc, Nat.add_comm 1]

theorem length_numberedFrom (next n : Nat) : (numberedFrom name next n).length = n := by
  induction n generalizing next with
  | zero => rfl
  | succ n ih => rw [numberedFrom, List.length_cons, ih]

theorem numberedFrom_succ (next n : Nat) :
    numberedFrom name next (n + 1) = numberedFrom name next n ++ [numbered name (next + n)] := by
  induction n generalizing next with
  | zero => rfl
  | succ n ih =>
    rw [numberedFrom, ih, numberedFrom, List.cons_append, Nat.add_right_comm, Nat.add_assoc]

theorem answers_opening {next : State} {out : List (Arrival Reply)}
    (h : Answers (process metadata) k next rs out) :
    Answers (process metadata) (k + 1) (.opening next) rs (.headers (headers metadata) :: out) :=
  .say (.headers rfl) h

/-! ## One request -/

theorem answers_hello (r : Request) :
    Answers (process metadata) 4 .hello [r]
      [.headers (headers metadata), .message ⟨greet r.name, 1⟩, .ended none] :=
  .hear rfl (answers_opening (.say (.message rfl) (.finish rfl fun _ ↦ rfl)))

theorem answers_counting (hname : name ≠ failName) {limit i n : Nat}
    (hlimit : limit = 0 ∨ i + n ≤ limit + 1) {rest : List (Arrival Reply)}
    (hrest : Answers (process metadata) k (.counting name limit (i + n)) rs rest) :
    Answers (process metadata) (k + n) (.counting name limit i) rs
      ((numberedFrom name i n).map .message ++ rest) := by
  induction n generalizing i with
  | zero => exact hrest
  | succ n ih =>
    refine .say (.message ?_) (ih (i := i + 1) (by omega) ?_)
    · rw [process, if_neg (by omega), if_neg hname]
    · rwa [Nat.add_right_comm]

theorem answers_hellos (r : Request) (hname : r.name ≠ failName) {n : Nat}
    (hn : r.count = 0 ∨ n ≤ r.count) :
    Answers (process metadata) (0 + n + 1 + 1) .hellos [r]
      (.headers (headers metadata) :: ((numberedFrom r.name 1 n).map .message ++ [])) :=
  .hear rfl (answers_opening (answers_counting hname (by omega) .later))

theorem answers_hellos_all (r : Request) (hname : r.name ≠ failName) (hcount : 0 < r.count) :
    Answers (process metadata) (1 + r.count + 1 + 1) .hellos [r]
      (.headers (headers metadata) ::
        ((numberedFrom r.name 1 r.count).map .message ++ [.ended none])) := by
  refine .hear rfl (answers_opening (answers_counting hname (by omega) ?_))
  refine .finish ?_ fun _ ↦ rfl
  rw [process, if_pos (by omega)]

/-- The one numbered greeting of a request that makes the method fail, and as much more as one
likes of what the method says then. -/
theorem answers_hellos_fail (r : Request) (hname : r.name = failName) {rest : List (Arrival Reply)}
    (hrest : Answers (process metadata) k (.ending (some (forced .internal))) [] rest) :
    Answers (process metadata) (k + 1 + 1 + 1) .hellos [r]
      (.headers (headers metadata) :: .message (numbered r.name 1) :: rest) := by
  refine .hear rfl (answers_opening (.say (.message ?_) hrest))
  rw [process, if_neg (by omega), if_pos hname]

/-! ## A stream of requests -/

theorem answers_collecting (hrs : ∀ r ∈ rs, r.name ≠ failName) (names : List String) :
    ∃ k, Answers (process metadata) k (.collecting names) rs
      [.headers (headers metadata),
        .message ⟨greet (", ".intercalate (names ++ rs.map Request.name)),
          min (names.length + rs.length) (Numeric.maxUnsigned 32)⟩,
        .ended none] := by
  -- On what is still to come, whatever has been collected before.
  induction rs generalizing names with
  | nil =>
    rw [List.map_nil, List.append_nil]
    exact ⟨4, .hearEnd rfl (answers_opening (.say (.message rfl) (.finish rfl fun _ ↦ rfl)))⟩
  | cons r rs ih =>
    obtain ⟨k, hk⟩ := ih (fun r hr ↦ hrs r (List.mem_cons_of_mem _ hr)) (names ++ [r.name])
    rw [List.append_assoc, List.length_append, List.length_singleton, Nat.add_assoc,
      Nat.add_comm 1] at hk
    refine ⟨k + 1, .hear rfl ?_⟩
    dsimp only
    rw [if_neg (hrs r List.mem_cons_self)]
    exact hk

theorem exists_fail_of_cons {r : Request} (hrs : ∃ r' ∈ r :: rs, r'.name = failName)
    (hname : r.name ≠ failName) : ∃ r' ∈ rs, r'.name = failName := by
  obtain ⟨r', hr', hname'⟩ := hrs
  rcases List.mem_cons.1 hr' with rfl | hmem
  · exact absurd hname' hname
  · exact ⟨r', hmem, hname'⟩

theorem answers_collecting_fail (hrs : ∃ r ∈ rs, r.name = failName) (names : List String) :
    ∃ k, Answers (process metadata) k (.collecting names) rs
      [.ended (some (forced .invalidArgument))] := by
  induction rs generalizing names with
  | nil =>
    obtain ⟨r, hr, -⟩ := hrs
    cases hr
  | cons r rs ih =>
    by_cases hname : r.name = failName
    · refine ⟨2, .hear rfl ?_⟩
      dsimp only
      rw [if_pos hname]
      exact .finish rfl nofun
    · obtain ⟨k, hk⟩ := ih (exists_fail_of_cons hrs hname) (names ++ [r.name])
      refine ⟨k + 1, .hear rfl ?_⟩
      dsimp only
      rw [if_neg hname]
      exact hk

theorem answers_conversing (hrs : ∀ r ∈ rs, r.name ≠ failName) (seen : Nat) :
    ∃ k, Answers (process metadata) k (.conversing seen) rs
      ((greetings seen rs).map .message ++ [.ended none]) := by
  induction rs generalizing seen with
  | nil => exact ⟨2, .hearEnd rfl (.finish rfl fun _ ↦ rfl)⟩
  | cons r rs ih =>
    obtain ⟨k, hk⟩ := ih (fun r hr ↦ hrs r (List.mem_cons_of_mem _ hr)) (seen + 1)
    refine ⟨k + 1 + 1, .hear rfl ?_⟩
    dsimp only
    rw [if_neg (hrs r List.mem_cons_self)]
    exact .say (.message rfl) hk

theorem answers_conversing_fail (hrs : ∃ r ∈ rs, r.name = failName) (seen : Nat) :
    ∃ k, ∃ replies : List Reply, Answers (process metadata) k (.conversing seen) rs
      (replies.map .message ++ [.ended (some (forced .internal))]) := by
  induction rs generalizing seen with
  | nil =>
    obtain ⟨r, hr, -⟩ := hrs
    cases hr
  | cons r rs ih =>
    by_cases hname : r.name = failName
    · refine ⟨2, [], .hear rfl ?_⟩
      dsimp only
      rw [if_pos hname]
      exact .finish rfl nofun
    · obtain ⟨k, replies, hk⟩ := ih (exists_fail_of_cons hrs hname) (seen + 1)
      refine ⟨k + 1 + 1, ⟨greet r.name, seen + 1⟩ :: replies, .hear rfl ?_⟩
      dsimp only
      rw [if_neg hname]
      exact .say (.message rfl) hk

end CallCheck.Greeter
