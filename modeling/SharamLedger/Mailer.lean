import SharamLedger.Lib.Escape
import SharamLedger.Lib.Text
import SharamLedger.System

/-!
# The invite mail

`crate/gateway/src/mailer.rs` builds the HTML of an invite from the texts of the people involved.
Every text but one is escaped. The address of the inviter stands in the mail as it is, twice, so the
mail has the template's markup as long as that address has none (`PlainText`).
-/

namespace SharamLedger

open Lib Lib.Escape

/-! ## The page -/

/-- The characters that `html_escape` replaces. -/
def htmlEntities : Entities Char where
  rows := [('&', "&amp;".toList), ('<', "&lt;".toList), ('>', "&gt;".toList),
    ('"', "&quot;".toList), ('\'', "&#39;".toList)]
  marker := '&'
  starts := by simp
  covers := by simp
  apart := by decide

/-- `html_escape`. -/
def htmlEscape (s : String) : String := String.ofList (htmlEntities.escape s.toList)

/-- What a mail program shows for a text of the page. -/
def htmlUnescape (l : List Char) : List Char := htmlEntities.unescape l

/-- A literal part of a format string. -/
def lit (s : String) : Piece Char := .text s.toList

/-- An argument that goes through `html_escape`. -/
def escaped (s : String) : Piece Char := .arg (htmlEscape s).toList s.toList

/-- An argument as it is. -/
def raw (s : String) : Piece Char := .arg s.toList s.toList

/-- `inviter`. -/
def inviterPieces (invite : InviteEmail) : List (Piece Char) :=
  match invite.invitedByName with
  | some n =>
      [escaped n, lit " (<a href=\"mailto:", raw invite.invitedByEmail, lit "\">",
        raw invite.invitedByEmail, lit "</a>)"]
  | none =>
      [lit "<a href=\"mailto:", raw invite.invitedByEmail, lit "\">", raw invite.invitedByEmail,
        lit "</a>"]

/-- The format string of `build_html_body` with its arguments. -/
def htmlPieces (invite : InviteEmail) (roleLabel link : String) : List (Piece Char) :=
  [lit "<!doctype html><html><body style=\"font-family:system-ui,-apple-system,Segoe UI,Roboto,",
    lit "sans-serif;color:#111;line-height:1.5\"><p>Hi,</p><p>"] ++
  inviterPieces invite ++
  [lit " invited you to join <strong>", escaped invite.tenantDisplayName,
    lit "</strong> on Sharam as <strong>", escaped roleLabel, lit "</strong>.</p><p><a href=\"",
    lit link,
    lit "\" style=\"display:inline-block;padding:10px 16px;background:#111;color:#fff;",
    lit "text-decoration:none;border-radius:6px\">Open ", escaped invite.tenantDisplayName,
    lit "</a></p><p style=\"font-size:13px;color:#555\">Or paste this link into your browser: ",
    lit "<br/><a href=\"", lit link, lit "\">", lit link,
    lit "</a></p><p style=\"font-size:13px;color:#555\">If you don't have an account yet, sign in ",
    lit "with this email (<strong>", escaped invite.toEmail,
    lit "</strong>) using Google and the invite will be applied automatically.</p>",
    lit "<p style=\"font-size:13px;color:#888\">— Sharam</p></body></html>"]

/-- `build_html_body`. -/
def buildHtmlBody (invite : InviteEmail) (roleLabel link : String) : String :=
  String.ofList (render (htmlPieces invite roleLabel link))

/-- `Mailer::invite_link`, for the base without slashes at its end. -/
def inviteLink (appBaseUrl slug : String) : String := appBaseUrl ++ "/ventures/" ++ slug

/-! ## What is asked of it -/

/-- The characters that make up tags and their attributes. -/
def isMarkup (c : Char) : Bool := c == '<' || c == '>' || c == '"'

/-- An invite with nothing in its texts, from an inviter with a name or without one. -/
def emptyInvite (named : Bool) : InviteEmail where
  toEmail := ""
  tenantSlug := ""
  tenantDisplayName := ""
  role := ""
  invitedByName := if named then some "" else none
  invitedByEmail := ""

/-- The mail has the markup of its template, and shows every text as it was given. -/
structure Inert (invite : InviteEmail) (roleLabel link : String) : Prop where
  markup : (buildHtmlBody invite roleLabel link).toList.filter isMarkup =
    (buildHtmlBody (emptyInvite invite.invitedByName.isSome) "" link).toList.filter isMarkup
  shown : ∀ written value, .arg written value ∈ htmlPieces invite roleLabel link →
    htmlUnescape written = value

/-- No markup, and nothing that is read as an entity. -/
structure PlainText (s : String) : Prop where
  markup : ∀ c ∈ s.toList, isMarkup c = false
  entities : ∀ row ∈ htmlEntities.rows, ¬ row.2 <:+: s.toList

/-! ## When it holds -/

theorem blank_lit (s : String) : (lit s).blank = lit s := rfl

theorem blank_escaped (s : String) : (escaped s).blank = escaped "" := rfl

/-- The template is the mail of an empty invite. -/
theorem htmlPieces_blank (invite : InviteEmail) (roleLabel link : String) :
    (htmlPieces invite roleLabel link).map Piece.blank =
      htmlPieces (emptyInvite invite.invitedByName.isSome) "" link := by
  have hinviter : (inviterPieces invite).map Piece.blank =
      inviterPieces (emptyInvite invite.invitedByName.isSome) := by
    unfold inviterPieces
    cases invite.invitedByName <;> rfl
  unfold htmlPieces
  simp only [List.map_append, List.map_cons, List.map_nil, blank_lit, blank_escaped, hinviter]
  rfl

/-- An escaped text has no markup and is shown as it was given. -/
theorem escaped_inert (s : String) :
    (htmlEscape s).toList.filter isMarkup = [] ∧ htmlUnescape (htmlEscape s).toList = s.toList := by
  rw [htmlEscape, String.toList_ofList]
  refine ⟨List.filter_eq_nil_iff.mpr fun c hc hmarkup => ?_, Entities.unescape_escape _⟩
  rcases Entities.mem_escape hc with ⟨-, hplain⟩ | ⟨row, hrow, hmem⟩
  · have hkey : ∃ row ∈ htmlEntities.rows, row.1 = c := by
      simp only [isMarkup, Bool.or_eq_true, beq_iff_eq] at hmarkup
      rcases hmarkup with (rfl | rfl) | rfl <;> simp [htmlEntities]
    obtain ⟨row, hrow, heq⟩ := hkey
    exact hplain row hrow heq
  · -- no entity is spelled with markup
    have hnone : (htmlEntities.rows.any fun row => row.2.any isMarkup) = false := by decide
    have hsome : (htmlEntities.rows.any fun row => row.2.any isMarkup) = true :=
      List.any_eq_true.mpr ⟨row, hrow, List.any_eq_true.mpr ⟨c, hmem, hmarkup⟩⟩
    rw [hnone] at hsome
    cases hsome

/-- A piece of the mail: its own text, an escaped argument, or the address of the inviter. -/
inductive MailPiece (invite : InviteEmail) : Piece Char → Prop
  | lit (s : String) : MailPiece invite (lit s)
  | escaped (s : String) : MailPiece invite (escaped s)
  | address : MailPiece invite (raw invite.invitedByEmail)

theorem htmlPieces_pieces (invite : InviteEmail) (roleLabel link : String) :
    ∀ piece ∈ htmlPieces invite roleLabel link, MailPiece invite piece := by
  have hinviter : ∀ piece ∈ inviterPieces invite, MailPiece invite piece := by
    unfold inviterPieces
    cases invite.invitedByName with
    | some n => simp [MailPiece.lit, MailPiece.escaped, MailPiece.address]
    | none => simp [MailPiece.lit, MailPiece.address]
  unfold htmlPieces
  simp only [List.forall_mem_append, List.forall_mem_cons]
  simpa [MailPiece.lit, MailPiece.escaped] using hinviter

theorem address_mem_htmlPieces (invite : InviteEmail) (roleLabel link : String) :
    raw invite.invitedByEmail ∈ htmlPieces invite roleLabel link := by
  have hinviter : raw invite.invitedByEmail ∈ inviterPieces invite := by
    unfold inviterPieces
    cases invite.invitedByName <;> simp
  exact List.mem_append_left _ (List.mem_append_right _ hinviter)

/-- The markup is the template's when no argument has any. -/
theorem markup_iff (invite : InviteEmail) (roleLabel link : String) :
    (buildHtmlBody invite roleLabel link).toList.filter isMarkup =
        (buildHtmlBody (emptyInvite invite.invitedByName.isSome) "" link).toList.filter isMarkup ↔
      ∀ written value, .arg written value ∈ htmlPieces invite roleLabel link →
        written.filter isMarkup = [] := by
  rw [buildHtmlBody, buildHtmlBody, String.toList_ofList, String.toList_ofList,
    ← htmlPieces_blank invite roleLabel link]
  exact filter_render_iff isMarkup _

/-- The address of the inviter is plain in an inert mail. -/
theorem Inert.plainText {invite : InviteEmail} {roleLabel link : String}
    (h : Inert invite roleLabel link) : PlainText invite.invitedByEmail := by
  have haddress := address_mem_htmlPieces invite roleLabel link
  have hmarkup := (markup_iff invite roleLabel link).mp h.markup _ _ haddress
  refine ⟨fun c hc => ?_, Entities.unescape_eq_self_iff.mp (h.shown _ _ haddress)⟩
  exact Bool.eq_false_iff.mpr (List.filter_eq_nil_iff.mp hmarkup c hc)

/-- With a plain address the mail is inert. -/
theorem PlainText.inert {invite : InviteEmail} (h : PlainText invite.invitedByEmail)
    (roleLabel link : String) : Inert invite roleLabel link := by
  have hpieces := htmlPieces_pieces invite roleLabel link
  refine ⟨(markup_iff invite roleLabel link).mpr fun written value hmem => ?_,
    fun written value hmem => ?_⟩
  · generalize hpiece : Piece.arg written value = piece at hmem
    cases hpieces piece hmem with
    | lit s => cases hpiece
    | escaped s =>
        cases hpiece
        exact (escaped_inert s).1
    | address =>
        cases hpiece
        exact List.filter_eq_nil_iff.mpr fun c hc hmarkup => by
          rw [h.markup c hc] at hmarkup
          cases hmarkup
  · generalize hpiece : Piece.arg written value = piece at hmem
    cases hpieces piece hmem with
    | lit s => cases hpiece
    | escaped s =>
        cases hpiece
        exact (escaped_inert s).2
    | address =>
        cases hpiece
        exact Entities.unescape_eq_self_iff.mpr h.entities

/-- The mail is inert when the address of the inviter is plain, and only then. -/
theorem inviteMail_inert_iff (invite : InviteEmail) (roleLabel appBaseUrl : String)
    (slug : TenantSlug) :
    Inert invite roleLabel (inviteLink appBaseUrl slug.val) ↔ PlainText invite.invitedByEmail :=
  ⟨fun h => h.plainText, fun h => h.inert roleLabel _⟩

/-- An invite from an address with a quoted tag in it. -/
def taggedInvite : InviteEmail where
  toEmail := "bob@pool.org"
  tenantSlug := "pool"
  tenantDisplayName := "Pool"
  role := "member"
  invitedByName := none
  invitedByEmail := "\"<b>\"@pool.org"

theorem taggedInvite_not_inert :
    ¬ Inert taggedInvite "Member" (inviteLink "https://sharam.test" "pool") := by
  intro h
  have hmarkup := h.plainText.markup '<' (by decide)
  cases hmarkup

end SharamLedger
