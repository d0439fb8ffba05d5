import Flowchart.Proofs.Server.Answered
import Flowchart.Proofs.Text.Lines

/-! # Accepted addresses

An accepted address loses the slashes at its end, and requests go to what is left with the path of
the request behind it.  The scheme is looked for before the slashes are dropped, and it ends with
slashes itself.  So the scheme stays if anything but slashes comes after it, and only then
(`hasScheme_dropSlashes_iff`); of an address without a host a stump is left, which is not accepted
again (`dropSlashes_of_not_namesHost`).

The result for all addresses is `requests_of_resolve`. -/

namespace Flowchart.Server

variable {address url : String}

/-! ### Slashes at the end -/

theorem toList_dropSlashes (address : String) :
    (dropSlashes address).toList = Text.dropEndWhile (· == '/') address.toList :=
  String.toList_ofList

theorem exists_dropSlashes_append (address : String) :
    ∃ count, address.toList = (dropSlashes address).toList ++ List.replicate count '/' := by
  obtain ⟨slashes, haddress, hslashes⟩ :=
    Text.exists_dropEndWhile_append (· == '/') address.toList
  refine ⟨slashes.length, ?_⟩
  rw [toList_dropSlashes, ← List.eq_replicate_of_mem fun c hc => eq_of_beq (hslashes c hc)]
  exact haddress

theorem getLast?_dropSlashes_ne (address : String) :
    (dropSlashes address).toList.getLast? ≠ some '/' := by
  intro hlast
  rw [toList_dropSlashes] at hlast
  exact absurd (Text.getLast?_dropEndWhile address.toList '/' hlast) (by decide)

theorem dropSlashes_eq_self (h : address.toList.getLast? ≠ some '/') :
    dropSlashes address = address := by
  rw [dropSlashes, Text.dropEndWhile_eq_self, String.ofList_toList]
  rintro c hc
  refine beq_eq_false_iff_ne.mpr ?_
  rintro rfl
  exact h hc

/-! ### Schemes -/

/-- Something other than slashes comes after the scheme of an address. -/
def NamesHost (address : String) : Prop :=
  ∃ scheme ∈ schemes, ∃ rest, address.toList = scheme.toList ++ rest ∧ ∃ c ∈ rest, c ≠ '/'

theorem hasScheme_iff : hasScheme address = true ↔
    ∃ scheme ∈ schemes, ∃ rest, address.toList = scheme.toList ++ rest := by
  rw [hasScheme, List.any_eq_true]
  refine exists_congr fun scheme => and_congr_right fun _ => ?_
  rw [List.isPrefixOf_iff_prefix]
  exact exists_congr fun rest => eq_comm

/-- The slashes of a scheme stay only in front of something else. -/
theorem hasScheme_dropSlashes_iff : hasScheme (dropSlashes address) = true ↔ NamesHost address := by
  constructor
  · intro h
    obtain ⟨scheme, hscheme, rest, hrest⟩ := hasScheme_iff.mp h
    obtain ⟨count, haddress⟩ := exists_dropSlashes_append address
    refine ⟨scheme, hscheme, rest ++ List.replicate count '/', ?_, ?_⟩
    · rw [haddress, hrest, List.append_assoc]
    · -- A scheme alone would end with a slash, and so would a scheme with slashes behind it.
      have hlast := getLast?_dropSlashes_ne address
      rw [hrest] at hlast
      rcases List.eq_nil_or_concat rest with rfl | ⟨front, c, rfl⟩
      · have hend : ∀ scheme ∈ schemes, scheme.toList.getLast? = some '/' := by decide
        rw [List.append_nil, hend scheme hscheme] at hlast
        exact absurd rfl hlast
      · refine ⟨c, by simp, ?_⟩
        rintro rfl
        simp at hlast
  · rintro ⟨scheme, hscheme, rest, haddress, c, hc, hne⟩
    have hkept : Text.dropEndWhile (· == '/') rest ≠ [] := by
      intro hnil
      exact hne (eq_of_beq (Text.dropEndWhile_eq_nil_iff.mp hnil c hc))
    refine hasScheme_iff.mpr ⟨scheme, hscheme, Text.dropEndWhile (· == '/') rest, ?_⟩
    rw [toList_dropSlashes, haddress, Text.dropEndWhile_append, if_neg hkept]

/-- A scheme without its slashes. -/
def stumps : List String := ["http:", "https:"]

theorem dropSlashes_of_not_namesHost (h : hasScheme address = true) (hhost : ¬ NamesHost address) :
    dropSlashes address ∈ stumps := by
  obtain ⟨scheme, hscheme, rest, haddress⟩ := hasScheme_iff.mp h
  have hslashes : Text.dropEndWhile (· == '/') rest = [] := by
    refine Text.dropEndWhile_eq_nil_iff.mpr fun c hc => ?_
    by_contra hne
    exact hhost ⟨scheme, hscheme, rest, haddress, c, hc, by simpa using hne⟩
  have hdrop : dropSlashes address = dropSlashes scheme := by
    rw [dropSlashes, haddress, Text.dropEndWhile_append, if_pos hslashes, dropSlashes]
  have hstumps : ∀ scheme ∈ schemes, dropSlashes scheme ∈ stumps := by decide
  rw [hdrop]
  exact hstumps scheme hscheme

/-! ### Resolving -/

theorem resolve_eq_ok_iff {given env : Option String} : resolve given env = .ok url ↔
    hasScheme (chosenAddress given env) = true ∧ dropSlashes (chosenAddress given env) = url := by
  by_cases hscheme : hasScheme (chosenAddress given env) = true <;> simp [resolve, hscheme]

theorem resolve_of_ne_empty (h : address ≠ "") (env : Option String) :
    resolve (some address) env =
      if hasScheme address then .ok (dropSlashes address) else .error address := by
  have hchosen : chosenAddress (some address) env = address := by
    rw [chosenAddress, nonempty?, if_neg h]
    rfl
  rw [resolve, hchosen]

theorem resolve_resolved {given env : Option String} (h : resolve given env = .ok url)
    (env' : Option String) :
    resolve (some url) env' = if hasScheme url then .ok url else .error url := by
  obtain ⟨hscheme, rfl⟩ := resolve_eq_ok_iff.mp h
  have hne : dropSlashes (chosenAddress given env) ≠ "" := by
    intro hempty
    by_cases hhost : NamesHost (chosenAddress given env)
    · rw [← hasScheme_dropSlashes_iff, hempty] at hhost
      exact absurd hhost (by decide)
    · have hstump := dropSlashes_of_not_namesHost hscheme hhost
      rw [hempty] at hstump
      exact absurd hstump (by decide)
  rw [resolve_of_ne_empty hne, dropSlashes_eq_self (getLast?_dropSlashes_ne _)]

/-! ### Requests -/

/-- **Requests go to the accepted address.**  This is the chosen one without the slashes at its end,
and the path of a request stands right behind it; records that cannot be printed are not sent.  If
the chosen address names a host then the accepted one still has its scheme and is accepted again as
it is; else it is a scheme without its slashes, and is refused when it is given again. -/
theorem requests_of_resolve (a : Access) (h : resolve a.given a.env = .ok url) :
    (∃ count, (chosenAddress a.given a.env).toList = url.toList ++ List.replicate count '/') ∧
    url.toList.getLast? ≠ some '/' ∧
    (hasScheme url = true ↔ NamesHost (chosenAddress a.given a.env)) ∧
    (hasScheme url = false → url ∈ stumps) ∧
    (∀ env, resolve (some url) env = if hasScheme url then .ok url else .error url) ∧
    (∀ records, (a.postBatch records).outcome.2.map Request.url =
      if records.all Json.prints then [url ++ Access.batchPath] else []) ∧
    a.askHealth.outcome.2.map Request.url = [url ++ Access.healthPath] := by
  have hagain := resolve_resolved h
  have haddress : a.address = .ok url := by
    rw [Access.address, h]
    rfl
  obtain ⟨hscheme, hurl⟩ := resolve_eq_ok_iff.mp h
  have hhost : hasScheme url = true ↔ NamesHost (chosenAddress a.given a.env) := by
    rw [← hurl]
    exact hasScheme_dropSlashes_iff
  refine ⟨?_, ?_, hhost, ?_, hagain, ?_, ?_⟩
  · rw [← hurl]
    exact exists_dropSlashes_append _
  · rw [← hurl]
    exact getLast?_dropSlashes_ne _
  · intro hstump
    rw [← hurl]
    refine dropSlashes_of_not_namesHost hscheme fun hnames => ?_
    rw [hhost.mpr hnames] at hstump
    cases hstump
  · intro records
    by_cases hprints : ∀ record ∈ records, record.prints = true
    · rw [(Access.gives_postBatch haddress hprints).outcome, if_pos (List.all_eq_true.mpr hprints)]
      rfl
    · rw [(Access.gives_postBatch_of_not_prints haddress hprints).outcome,
        if_neg (mt List.all_eq_true.mp hprints)]
      rfl
  · rw [(Access.gives_askHealth haddress).outcome]
    rfl

/-- A way to a server that is not there, by the address of the environment. -/
def astray : Access :=
  ⟨some "", some "https://canvas.example/http:///", .standard, fun _ => .unreachable "no route"⟩

theorem requests_of_resolve_astray :
    resolve astray.given astray.env = .ok "https://canvas.example/http:" ∧
    resolve (some "https://canvas.example/http:") none = .ok "https://canvas.example/http:" ∧
    astray.askHealth.outcome.2.map Request.url = ["https://canvas.example/http:/api/health"] ∧
    (astray.postBatch []).outcome.2.map Request.url =
      ["https://canvas.example/http:/api/elements/batch"] := by
  have h : resolve astray.given astray.env = .ok "https://canvas.example/http:" := by
    decide +kernel
  obtain ⟨-, -, -, -, hagain, hpost, hask⟩ := requests_of_resolve astray h
  refine ⟨h, ?_, ?_, ?_⟩
  · rw [hagain]
    decide +kernel
  · rw [hask]
    decide +kernel
  · rw [hpost]
    decide +kernel

/-- An address of a scheme and slashes is accepted without its scheme, and not again. -/
theorem resolve_bare_scheme : resolve (some "http://") none = .ok "http:" ∧
    hasScheme "http:" = false ∧ resolve (some "http:") none = .error "http:" := by
  decide +kernel

end Flowchart.Server
