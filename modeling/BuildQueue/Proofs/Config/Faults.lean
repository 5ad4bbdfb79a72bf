import BuildQueue.Proofs.Config.Occurrences
import Mathlib.Data.List.Basic

/-!
# Reporting invalid settings

The first occurrence that is refused is the one that is reported, and with two exceptions a value of
the wrong type or out of range is reported as an invalid value of its setting. A `url` that is no
string is not reported at all: the one that stood before is kept, in the end the default. A strategy
that is no string is reported as if it were missing.
-/

namespace BuildQueue

theorem Setting.read_of_read? {s : Setting} {value : Kdl.Value} (hread : s.read? value = none)
    (hurl : s ≠ .url) :
    ((s = .strategy → value.string? ≠ none) →
      ∃ why, s.read value = .error (.invalidValue s.name why)) ∧
    (s = .strategy → value.string? = none →
      s.read value = .error (.missingField "queue strategy")) := by
  obtain ⟨why, heq⟩ := s.read_eq value
  simp only [hread, if_neg hurl] at heq
  constructor
  · intro hstring
    rw [if_neg fun hboth ↦ hstring hboth.1 hboth.2] at heq
    exact ⟨why, heq⟩
  · rintro rfl hstring
    rw [if_pos ⟨rfl, hstring⟩] at heq
    exact heq

namespace SystemConfig

theorem parse_of_document {text : String} {doc : List Kdl.Node}
    (hdoc : Kdl.parse? text.toList = some doc) : parse text = standard.apply doc := by
  unfold parse
  rw [hdoc]
  rfl

/-- In a text that is a document, the first value that cannot be taken is reported as an invalid
value of its setting, as long as no argument is missing before it. The exceptions are a strategy
that is no string, which is reported as missing, and a `url` that is no string, which is not
reported: a text is accepted just if every other value can be taken, and the configuration holds the
last value of each setting's type. So after a `url` of another type the one before it still counts,
or the default. -/
theorem reports_invalid_values {text : String} {doc : List Kdl.Node}
    (hdoc : Kdl.parse? text.toList = some doc) :
    (∀ before s value after, occurrences doc = before ++ ⟨s, some value⟩ :: after →
      (∀ o ∈ before, o.Passes) → s.read? value = none → s ≠ .url →
        ((s = .strategy → value.string? ≠ none) →
          ∃ why, parse text = .error (.invalidValue s.name why)) ∧
        (s = .strategy → value.string? = none →
          parse text = .error (.missingField "queue strategy"))) ∧
    ((∃ c, parse text = .ok c) ↔ ∀ o ∈ occurrences doc, o.Passes) ∧
    ∀ c, parse text = .ok c → ∀ s : Setting,
      c.get s = (s.values (occurrences doc)).getLast?.getD (standard.get s) := by
  rw [parse_of_document hdoc]
  refine ⟨?_, ?_, ?_⟩
  · intro before s value after hsplit hbefore hread hurl
    have hrefused {e : ConfigError} (he : s.read value = .error e) :
        standard.apply doc = .error e :=
      apply_eq_error_iff.2 ⟨before, ⟨s, some value⟩, after, hsplit, hbefore, he⟩
    obtain ⟨hinvalid, hmissing⟩ := Setting.read_of_read? hread hurl
    constructor
    · intro hstring
      obtain ⟨why, he⟩ := hinvalid hstring
      exact ⟨why, hrefused he⟩
    · intro hs hstring
      exact hrefused (hmissing hs hstring)
  · simp only [apply_eq_ok_iff, exists_and_left, exists_eq', and_true]
  · intro c hc s
    rw [← (apply_eq_ok_iff.1 hc).2]
    exact get_foldl_update standard _ s

/-- A `url` and a number of connections that are both invalid: the second one is reported. -/
theorem reports_invalid_values_connections :
    let text := "database url=5 max-connections=many"
    ∃ doc, Kdl.parse? text.toList = some doc ∧
      occurrences doc = [⟨.url, some (.integer 5)⟩, ⟨.maxConnections, some (.string "many")⟩] ∧
      ∃ why, parse text = .error (.invalidValue "max-connections" why) := by
  intro text
  have hset : (Kdl.parse? text.toList).map occurrences =
      some [⟨.url, some (.integer 5)⟩, ⟨.maxConnections, some (.string "many")⟩] := by
    decide +kernel
  obtain ⟨doc, hdoc, hoccurrences⟩ := Option.map_eq_some_iff.1 hset
  have hurl : Occurrence.Passes ⟨.url, some (.integer 5)⟩ := ⟨_, rfl, .inl rfl⟩
  obtain ⟨hfirst, -, -⟩ := reports_invalid_values hdoc
  obtain ⟨hinvalid, -⟩ := hfirst [_] .maxConnections (.string "many") [] hoccurrences
    (by simpa using hurl) rfl (by decide)
  exact ⟨doc, hdoc, hoccurrences, hinvalid (by decide)⟩

/-- A `url` that is a number is accepted and leaves the default; a strategy that is a number is
reported as missing. -/
theorem invalid_values_not_reported :
    ((Kdl.parse? "database url=5".toList).map occurrences = some [⟨.url, some (.integer 5)⟩] ∧
      Setting.url.read? (.integer 5) = none ∧
      parse "database url=5" = .ok standard ∧
      ∀ why, parse "database url=5" ≠ .error (.invalidValue "url" why)) ∧
    ((Kdl.parse? "queue \x7b strategy 5 \x7d".toList).map occurrences =
        some [⟨.strategy, some (.integer 5)⟩] ∧
      Setting.strategy.read? (.integer 5) = none ∧
      parse "queue \x7b strategy 5 \x7d" = .error (.missingField "queue strategy") ∧
      ∀ why, parse "queue \x7b strategy 5 \x7d" ≠ .error (.invalidValue "strategy" why)) := by
  have hurl : parse "database url=5" = .ok standard := by decide +kernel
  have hstrategy : parse "queue \x7b strategy 5 \x7d" =
      .error (.missingField "queue strategy") := by
    decide +kernel
  refine ⟨⟨by decide +kernel, rfl, hurl, fun why ↦ ?_⟩,
    ⟨by decide +kernel, rfl, hstrategy, fun why ↦ ?_⟩⟩
  · rw [hurl]
    simp
  · rw [hstrategy]
    simp

end SystemConfig

end BuildQueue
