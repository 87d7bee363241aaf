import Autograph.Monitor.Handler
import Mathlib.Data.List.Nodup
import Mathlib.Data.String.Basic
import Mathlib.Data.Nat.Digits

/-!
# When the monitor reports success

One iteration of `Handler`'s loop sets `failed` exactly when its response's verifier, or
the unknown-type default, returns an error, and then appends that error to `failures`; an
iteration that passes sets `err` to nil, and a skipped one leaves everything as it was
(`loopStep_*`). By induction over the responses, the loop ends with `failed` set exactly
when some response failed, with `failures` the failing responses' errors in order, and with
`err` nil when none failed (`foldl_loopStep_*`). `Handler`'s verdict follows.

The error `Handler` returns for the failures is `fmt.Errorf` of their numbered lines. The
numbers hold no `%`, so when no failure does either, the error is those lines as they are
(`failureMessage_no_percent`); a `%` in a failure is read as a verb.
-/

namespace Autograph.Monitor

section
variable {T : Types} {V : Verifiers}

/-! ## Types -/

/-- No verified type is `pgp` or `gpg2`. -/
theorem Types.known_ne_skipped (T : Types) : ∀ t ∈ T.known, t ≠ T.pgp ∧ t ≠ T.gpg2 := by
  have h : (T.known ++ [T.pgp, T.gpg2]).Nodup := T.distinct
  have hd := List.disjoint_of_nodup_append h
  exact fun t ht => ⟨fun h => hd ht (by simp [h]), fun h => hd ht (by simp [h])⟩

/-- A response is skipped exactly when its type is `pgp` or `gpg2`. -/
theorem verify_eq_none_iff {x : SignatureResponse} :
    verify T V x = none ↔ x.type = T.pgp ∨ x.type = T.gpg2 := by
  have hk := T.known_ne_skipped x.type
  simp only [Types.known, List.mem_cons, List.mem_singleton, List.not_mem_nil, or_false] at hk
  simp only [verify, ite_eq_iff, reduceCtorEq, and_false, false_or, and_true]
  tauto

/-- A response passes only if its type is known. -/
theorem verify_eq_some_none {x : SignatureResponse} (h : verify T V x = some none) :
    x.type ∈ T.known := by
  simp only [verify, ite_eq_iff, reduceCtorEq, and_false, false_or, Option.some.injEq] at h
  simp only [Types.known, List.mem_cons, List.mem_singleton, List.not_mem_nil, or_false]
  tauto

/-- A response that is not `pgp` or `gpg2` has a known type whose verifier returns nil
exactly when the loop assigns no error for it. -/
theorem passes_iff {x : SignatureResponse} :
    (x.type ≠ T.pgp → x.type ≠ T.gpg2 → x.type ∈ T.known ∧ verify T V x = some none) ↔
      ∀ e, verify T V x ≠ some (some e) := by
  constructor
  · intro h e he
    have hskip : ¬ (x.type = T.pgp ∨ x.type = T.gpg2) := fun hs => by
      simp [(verify_eq_none_iff (V := V)).mpr hs] at he
    simp only [not_or] at hskip
    simp [(h hskip.1 hskip.2).2] at he
  · intro h hp hg
    cases hv : verify T V x with
    | none => exact absurd (verify_eq_none_iff.mp hv) (by tauto)
    | some v =>
      cases v with
      | none => exact ⟨verify_eq_some_none hv, rfl⟩
      | some e => exact absurd hv (h e)

/-! ## The loop -/

section
variable {st : LoopState} {x : SignatureResponse}

theorem loopStep_failed :
    (loopStep T V st x).failed = true ↔ st.failed = true ∨ ∃ e, verify T V x = some (some e) := by
  unfold loopStep; split <;> simp_all

theorem loopStep_failures :
    (loopStep T V st x).failures = st.failures ++ (verify T V x).join.toList := by
  unfold loopStep; split <;> simp_all

theorem loopStep_err (h : st.err = none) (hx : ∀ e, verify T V x ≠ some (some e)) :
    (loopStep T V st x).err = none := by
  unfold loopStep; split <;> simp_all

end

theorem foldl_loopStep_failed (xs : List SignatureResponse) (st : LoopState) :
    (xs.foldl (loopStep T V) st).failed = true ↔
      st.failed = true ∨ ∃ x ∈ xs, ∃ e, verify T V x = some (some e) := by
  induction xs generalizing st with
  | nil => simp
  | cons x xs ih => simp only [List.foldl_cons, ih, loopStep_failed, List.exists_mem_cons_iff, or_assoc]

theorem foldl_loopStep_failures (xs : List SignatureResponse) (st : LoopState) :
    (xs.foldl (loopStep T V) st).failures =
      st.failures ++ xs.filterMap fun x => (verify T V x).join := by
  induction xs generalizing st with
  | nil => simp
  | cons x xs ih =>
    rw [List.foldl_cons, ih, loopStep_failures, List.filterMap_cons]
    cases (verify T V x).join <;> simp

theorem foldl_loopStep_err (xs : List SignatureResponse) (st : LoopState) (h : st.err = none)
    (hxs : ∀ x ∈ xs, ∀ e, verify T V x ≠ some (some e)) :
    (xs.foldl (loopStep T V) st).err = none := by
  induction xs generalizing st with
  | nil => exact h
  | cons x xs ih =>
    exact ih _ (loopStep_err h (hxs x (List.mem_cons_self _ _)))
      fun y hy => hxs y (List.mem_cons_of_mem _ hy)

/-- What `Handler` returns once the responses are decoded: nil exactly when every response
passes or is skipped. -/
theorem loop_verdict_eq_none_iff (xs : List SignatureResponse) :
    (if (loop T V xs).failed then some (Go.sprintf (failureMessage (loop T V xs).failures))
      else (loop T V xs).err) = none ↔ ∀ x ∈ xs, ∀ e, verify T V x ≠ some (some e) := by
  unfold loop
  by_cases hf : (xs.foldl (loopStep T V) ⟨none, false, []⟩).failed = true
  · obtain ⟨x, hx, e, he⟩ := ((foldl_loopStep_failed xs _).mp hf).resolve_left (by simp)
    simp only [hf, if_true, reduceCtorEq, false_iff, not_forall, not_not]
    exact ⟨x, hx, e, he⟩
  · have hok : ∀ x ∈ xs, ∀ e, verify T V x ≠ some (some e) := fun x hx e he =>
      hf ((foldl_loopStep_failed xs _).mpr (.inr ⟨x, hx, e, he⟩))
    simp only [hf, Bool.false_eq_true, if_false]
    exact iff_of_true (foldl_loopStep_err xs ⟨none, false, []⟩ rfl hok) hok

/-! ## `Handler` -/

/--
**When `Handler` returns nil.** For every outcome of the request, every decoded list of
responses and every verdict of the verifiers, `Handler` returns nil exactly when the
request is made and answered with status 201, its body is read and decodes, and every
response whose type is not `pgp` or `gpg2` has a known type whose verifier returns nil,
wherever the skipped responses stand among the others.
-/
theorem handler_eq_none_iff {newRequest : Option String} {resp : Except String Response}
    {unmarshal : String → Except String (List SignatureResponse)} :
    handler T V newRequest resp unmarshal = none ↔
      newRequest = none ∧ ∃ r body responses, resp = .ok r ∧ r.body = .ok body ∧
        r.statusCode = statusCreated ∧ unmarshal body = .ok responses ∧
        ∀ x ∈ responses, x.type ≠ T.pgp → x.type ≠ T.gpg2 →
          x.type ∈ T.known ∧ verify T V x = some none := by
  simp only [passes_iff]
  unfold handler
  rcases newRequest with _ | e
  · rcases resp with e | r
    · simp
    · rcases hb : r.body with e | body
      · simp [hb]
      · by_cases hs : r.statusCode = statusCreated
        · rcases hu : unmarshal body with e | xs
          · simp [hb, hs, hu]
          · simp only [hb, hs, ne_eq, not_true_eq_false, if_false, hu, loop_verdict_eq_none_iff]
            simp [hb, hs, hu]
        · simp [hb, hs]
  · simp

/-! ## The failures' text -/

/-- Decimal numerals, as `%d` prints them, hold no `%`. -/
theorem toDigitsCore_no_percent :
    ∀ (fuel n : Nat) (ds : List Char), '%' ∉ ds → '%' ∉ Nat.toDigitsCore 10 fuel n ds
  | 0, _, _, h => h
  | fuel + 1, n, ds, h => by
    have hdigit : ∀ k < 10, Nat.digitChar k ≠ '%' := by decide
    have hd : '%' ∉ Nat.digitChar (n % 10) :: ds :=
      List.not_mem_cons_of_ne_of_not_mem (hdigit _ (Nat.mod_lt n (by decide))).symm h
    unfold Nat.toDigitsCore
    dsimp only
    split
    · exact hd
    · exact toDigitsCore_no_percent fuel _ _ hd

theorem toString_nat_no_percent (n : Nat) : '%' ∉ (toString n).toList := by
  show '%' ∉ (Nat.toDigits 10 n).asString.toList
  rw [List.toList_asString]
  exact toDigitsCore_no_percent _ n [] (List.not_mem_nil _)

theorem failureLines_no_percent :
    ∀ (i : Nat) (fs : List String), (∀ e ∈ fs, '%' ∉ e.toList) →
      '%' ∉ (failureLines i fs).toList
  | _, [], _ => List.not_mem_nil _
  | i, f :: fs, h => by
    have hf : '%' ∉ f.toList := h f (List.mem_cons_self _ _)
    have hrest := failureLines_no_percent (i + 1) fs fun e he => h e (List.mem_cons_of_mem _ he)
    simp only [failureLines, String.toList, String.data_append, List.mem_append, not_or]
    exact ⟨⟨⟨⟨by decide, toString_nat_no_percent _⟩, by decide⟩, hf⟩, hrest⟩

/-- The numbered lines hold a `%` only where a failure does. -/
theorem failureMessage_no_percent {fs : List String} (h : ∀ e ∈ fs, '%' ∉ e.toList) :
    '%' ∉ (failureMessage fs).toList := by
  simp only [failureMessage, String.toList, String.data_append, List.mem_append, not_or]
  exact ⟨by decide, failureLines_no_percent 0 fs h⟩

/-- When the responses fail, `Handler`'s error is `fmt.Errorf` of the lines that list
exactly the failing responses' errors, numbered in their order, whatever skipped responses
stand between them; when no error holds a `%`, it is those lines as they are. -/
theorem handler_failures {resp : Response} {body : String} {responses : List SignatureResponse}
    {unmarshal : String → Except String (List SignatureResponse)} (hb : resp.body = .ok body)
    (hs : resp.statusCode = statusCreated) (hu : unmarshal body = .ok responses)
    (hf : ∃ x ∈ responses, ∃ e, verify T V x = some (some e)) :
    handler T V none (.ok resp) unmarshal =
        some (Go.sprintf (failureMessage (responses.filterMap fun x => (verify T V x).join))) ∧
      ((∀ e ∈ responses.filterMap (fun x => (verify T V x).join), '%' ∉ e.toList) →
        handler T V none (.ok resp) unmarshal =
          some (failureMessage (responses.filterMap fun x => (verify T V x).join))) := by
  have hfail : (loop T V responses).failed = true :=
    (foldl_loopStep_failed responses _).mpr (.inr hf)
  have hh : handler T V none (.ok resp) unmarshal =
      some (Go.sprintf (failureMessage (responses.filterMap fun x => (verify T V x).join))) := by
    simp only [handler, hb, hs, ne_eq, not_true_eq_false, if_false, hu, hfail, if_true]
    rw [loop, foldl_loopStep_failures]
    rfl
  exact ⟨hh, fun hp => by rw [hh, Go.sprintf_of_no_percent (failureMessage_no_percent hp)]⟩

end

/-! ## An example run -/

/-- The signer packages' `Type` values. -/
def exampleTypes : Types :=
  ⟨"contentsignature", "xpi", "apk", "rsapss", "pgp", "gpg2", by decide⟩

/-- Verifiers under which every XPI signature fails with `msg` and everything else passes. -/
def xpiFails (msg : String) : Verifiers :=
  ⟨fun _ => none, fun _ _ _ => none, fun _ => some msg, fun _ => none,
    fun _ _ => none, fun _ _ => none, fun _ => true⟩

/-- A response of type `t` with empty fields. -/
def responseOfType (t : String) : SignatureResponse := ⟨"", t, "", "", "", "", "", ""⟩

/-- A skipped `pgp` response, a failing XPI one and a passing MAR one. -/
def exampleResponses : List SignatureResponse :=
  [responseOfType "pgp", responseOfType "xpi", responseOfType "mar"]

/-- Only the XPI failure is reported, though a skipped response comes first. -/
theorem handler_failures_xpi :
    handler exampleTypes (xpiFails "xpi: bad signature") none
        (.ok ⟨"201 Created", 201, .ok "[]"⟩) (fun _ => .ok exampleResponses) =
      some "Errors found during monitoring:\n1. xpi: bad signature" :=
  ((@handler_failures exampleTypes (xpiFails "xpi: bad signature")
    ⟨"201 Created", 201, .ok "[]"⟩ "[]" exampleResponses (fun _ => .ok exampleResponses)
    rfl rfl rfl ⟨responseOfType "xpi", by simp [exampleResponses], _, rfl⟩).2
    (by decide)).trans rfl

/-- A `%` in a failure is read as a verb: here `% b`, a space flag and the verb `b`. -/
example : handler exampleTypes (xpiFails "xpi: 100% bad") none
    (.ok ⟨"201 Created", 201, .ok "[]"⟩) (fun _ => .ok exampleResponses) =
      some "Errors found during monitoring:\n1. xpi: 100%!b(MISSING)ad" := by decide

end Autograph.Monitor
