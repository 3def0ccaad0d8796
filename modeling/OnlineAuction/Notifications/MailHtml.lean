import OnlineAuction.Library.Markup
import OnlineAuction.Notifications.Records

/-! The HTML bodies of `app/services/email.py`. An f-string is the list of its pieces:
literal text, values that have gone through `html.escape`, and values in which no
character has a meaning of its own. -/

namespace OnlineAuction.Notifications

open Markup

def brandAccent : PlainText := ⟨"#e8a020", .of_chars rfl⟩
def brandBg : PlainText := ⟨"#0a0a0a", .of_chars rfl⟩
def brandSurface : PlainText := ⟨"#111113", .of_chars rfl⟩
def brandBorder : PlainText := ⟨"#27272a", .of_chars rfl⟩
def brandText : PlainText := ⟨"#fafafa", .of_chars rfl⟩
def brandMuted : PlainText := ⟨"#a1a1aa", .of_chars rfl⟩

/-- `_TYPE_PRESENTATION`: the label and the colour of the badge. -/
def typePresentation : NotificationType → PlainText × PlainText
  | .bidOutbid => (⟨"Вас перебили", .of_chars rfl⟩, ⟨"#f59e0b", .of_chars rfl⟩)
  | .bidPlaced => (⟨"Новая ставка", .of_chars rfl⟩, brandAccent)
  | .auctionEnding => (⟨"Аукцион скоро закончится", .of_chars rfl⟩, ⟨"#f59e0b", .of_chars rfl⟩)
  | .auctionWon => (⟨"Вы выиграли лот", .of_chars rfl⟩, ⟨"#22c55e", .of_chars rfl⟩)
  | .auctionLost => (⟨"Аукцион завершён", .of_chars rfl⟩, ⟨"#ef4444", .of_chars rfl⟩)
  | .auctionSold => (⟨"Лот продан", .of_chars rfl⟩, ⟨"#22c55e", .of_chars rfl⟩)
  | .newLot => (⟨"Новый лот", .of_chars rfl⟩, brandAccent)

def decimal (n : Nat) : PlainText :=
  ⟨toString n, fun c hMem hSpecial => by
    have hDigit : c.isDigit = true := Nat.isDigit_of_mem_toDigits (b := 10) (n := n) (by decide)
      (by decide) (by simpa [toString, Nat.repr] using hMem)
    simp only [List.mem_cons, List.not_mem_nil, or_false] at hSpecial
    rcases hSpecial with rfl | rfl | rfl | rfl | rfl <;> simp at hDigit⟩

def emailHead : String := "<!DOCTYPE html>
<html lang=\"ru\">
<head>
    <meta charset=\"UTF-8\">
    <meta name=\"viewport\" content=\"width=device-width, initial-scale=1.0\">
    <title>"

/-- From the title to the heading: the styles, the brand and the badge. -/
def emailStyle (accentColor typeLabel : PlainText) : Html :=
  [.literal "</title>
    <style>
        body \x7b
            margin: 0;
            padding: 0;
            font-family: -apple-system, BlinkMacSystemFont, 'Segoe UI', Roboto, 'Helvetica Neue', Arial, sans-serif;
            background: ",
    .plain brandBg,
    .literal ";
            color: ",
    .plain brandText,
    .literal ";
        \x7d
        .email-wrapper \x7b background: ",
    .plain brandBg,
    .literal "; padding: 32px 16px; \x7d
        .container \x7b
            max-width: 560px;
            margin: 0 auto;
            background: ",
    .plain brandSurface,
    .literal ";
            border-radius: 16px;
            overflow: hidden;
            border: 1px solid ",
    .plain brandBorder,
    .literal ";
        \x7d
        .brand \x7b
            padding: 28px 28px 16px;
            border-bottom: 1px solid ",
    .plain brandBorder,
    .literal ";
        \x7d
        .brand-logo \x7b
            font-size: 22px;
            font-weight: 800;
            letter-spacing: -0.3px;
            color: ",
    .plain brandAccent,
    .literal ";
            margin: 0;
        \x7d
        .content \x7b padding: 28px; \x7d
        .type-badge \x7b
            display: inline-block;
            padding: 6px 12px;
            background: rgba(232, 160, 32, 0.08);
            border: 1px solid ",
    .plain accentColor,
    .literal ";
            border-radius: 999px;
            color: ",
    .plain accentColor,
    .literal ";
            font-size: 12px;
            font-weight: 700;
            letter-spacing: 0.2px;
            margin-bottom: 18px;
        \x7d
        h1.email-title \x7b
            color: ",
    .plain brandText,
    .literal ";
            font-size: 22px;
            font-weight: 700;
            line-height: 1.3;
            margin: 0 0 14px 0;
        \x7d
        .message \x7b
            color: ",
    .plain brandMuted,
    .literal ";
            font-size: 15px;
            line-height: 1.55;
            margin: 0 0 22px 0;
        \x7d
        .auction-card \x7b
            background: ",
    .plain brandBg,
    .literal ";
            border: 1px solid ",
    .plain brandBorder,
    .literal ";
            border-radius: 12px;
            padding: 16px 18px;
            margin: 0 0 22px 0;
        \x7d
        .auction-label \x7b
            color: ",
    .plain brandMuted,
    .literal ";
            font-size: 11px;
            font-weight: 700;
            text-transform: uppercase;
            letter-spacing: 0.6px;
            margin-bottom: 6px;
        \x7d
        .auction-name \x7b
            color: ",
    .plain brandAccent,
    .literal ";
            font-size: 17px;
            font-weight: 700;
            margin: 0;
            line-height: 1.35;
        \x7d
        .button \x7b
            display: inline-block;
            background: ",
    .plain brandAccent,
    .literal ";
            color: ",
    .plain brandBg,
    .literal ";
            padding: 12px 22px;
            text-decoration: none;
            border-radius: 10px;
            font-weight: 700;
            font-size: 14px;
        \x7d
        .footer \x7b
            padding: 20px 28px 26px;
            border-top: 1px solid ",
    .plain brandBorder,
    .literal ";
            background: ",
    .plain brandBg,
    .literal ";
        \x7d
        .footer-text \x7b
            color: ",
    .plain brandMuted,
    .literal ";
            font-size: 12px;
            line-height: 1.55;
            margin: 0 0 6px 0;
        \x7d
        .footer-link \x7b
            color: ",
    .plain brandAccent,
    .literal ";
            text-decoration: none;
        \x7d
        .footer-link:hover \x7b text-decoration: underline; \x7d
    </style>
</head>
<body style=\"margin:0;padding:0;background:",
    .plain brandBg,
    .literal ";color:",
    .plain brandText,
    .literal ";\">
    <div class=\"email-wrapper\" style=\"background:",
    .plain brandBg,
    .literal ";padding:32px 16px;\">
        <div class=\"container\" style=\"max-width:560px;margin:0 auto;background:",
    .plain brandSurface,
    .literal ";border:1px solid ",
    .plain brandBorder,
    .literal ";border-radius:16px;overflow:hidden;\">
            <div class=\"brand\" style=\"padding:28px 28px 16px;border-bottom:1px solid ",
    .plain brandBorder,
    .literal ";\">
                <p class=\"brand-logo\" style=\"margin:0;color:",
    .plain brandAccent,
    .literal ";font-size:22px;font-weight:800;letter-spacing:-0.3px;\">Лотус</p>
            </div>

            <div class=\"content\" style=\"padding:28px;\">
                <span class=\"type-badge\" style=\"display:inline-block;padding:6px 12px;background:rgba(232,160,32,0.08);border:1px solid ",
    .plain accentColor,
    .literal ";border-radius:999px;color:",
    .plain accentColor,
    .literal ";font-size:12px;font-weight:700;letter-spacing:0.2px;margin-bottom:18px;\">",
    .plain typeLabel,
    .literal "</span>

                <h1 class=\"email-title\" style=\"margin:0 0 14px 0;color:",
    .plain brandText]

def titleOpen : String := ";font-size:22px;font-weight:700;line-height:1.3;\">"

def titleClose : String := "</h1>

                <p class=\"message\" style=\"margin:0 0 22px 0;color:"

def messageOpen : String := ";font-size:15px;line-height:1.55;\">"

def messageClose : String := "</p>

                "

def emailGap : String := "

                "

def emailFooter (baseUrl : String) (year : Nat) : Html :=
  [.literal "
            </div>

            <div class=\"footer\" style=\"padding:20px 28px 26px;border-top:1px solid ",
    .plain brandBorder,
    .literal ";background:",
    .plain brandBg,
    .literal ";\">
                <p class=\"footer-text\" style=\"margin:0 0 6px 0;color:",
    .plain brandMuted,
    .literal ";font-size:12px;line-height:1.55;\">
                    Это письмо отправлено автоматически. Отвечать на него не нужно.
                </p>
                <p class=\"footer-text\" style=\"margin:0 0 6px 0;color:",
    .plain brandMuted,
    .literal ";font-size:12px;line-height:1.55;\">
                    Управлять уведомлениями: <a href=\"",
    .escaped baseUrl,
    .literal "/profile.html\" class=\"footer-link\" style=\"color:",
    .plain brandAccent,
    .literal ";text-decoration:none;\">в настройках профиля</a>.
                </p>
                <p class=\"footer-text\" style=\"margin:10px 0 0 0;color:",
    .plain brandMuted,
    .literal ";font-size:11px;line-height:1.55;opacity:0.7;\">
                    © ",
    .plain (decimal year),
    .literal " Лотус
                </p>
            </div>
        </div>
    </div>
</body>
</html>"]

/-- `_render_email`. -/
def renderEmail (accentColor typeLabel : PlainText) (title message bodyCard cta : Html)
    (baseUrl : String) (year : Nat) : Html :=
  .literal emailHead :: (title ++ (emailStyle accentColor typeLabel ++ .literal titleOpen :: (title ++
    .literal titleClose :: .plain brandMuted :: .literal messageOpen :: (message ++
      .literal messageClose :: (bodyCard ++ .literal emailGap :: (cta ++ emailFooter baseUrl year))))))

/-- What the builders read of the configuration and the clock. -/
structure MailSettings where
  publicBaseUrl : String
  year : Nat

variable (S : MailSettings)

def buttonOpen : String := "<a href=\""

def buttonClose : String := "\" class=\"button\">"

def button (link : Html) (label : PlainText) : Html :=
  .literal buttonOpen :: (link ++ [.literal buttonClose, .plain label, .literal "</a>"])

def cardOpen : String :=
  "<div class=\"auction-card\"><div class=\"auction-label\">Лот</div><div class=\"auction-name\">"

def cardClose : String := "</div></div>"

def auctionCard (auctionTitle : String) : Html :=
  [.literal cardOpen, .escaped auctionTitle, .literal cardClose]

/-- `auction_link` of a notification. -/
def auctionLink : Option LotId → Html
  | some (id + 1) =>
      button [.escaped S.publicBaseUrl, .plain ⟨"/auction.html?id=", .of_chars rfl⟩,
        .plain (decimal (id + 1))] ⟨"Перейти к лоту →", .of_chars rfl⟩
  | some 0 | none => []

/-- `body_card` of a notification. -/
def bodyCard : Option String → Html
  | some auctionTitle => if auctionTitle = "" then [] else auctionCard auctionTitle
  | none => []

/-- `build_notification_email_html`. -/
def buildNotificationEmailHtml (type : NotificationType) (title message : String)
    (auctionId : Option LotId) (auctionTitle : Option String) : Html :=
  let (typeLabel, accent) := typePresentation type
  renderEmail accent typeLabel [.escaped title] [.escaped message] (bodyCard auctionTitle)
    (auctionLink S auctionId) S.publicBaseUrl S.year

def passwordResetText : PlainText :=
  ⟨". Кто-то запросил сброс пароля для " ++
    "этой учётной записи - надеемся, что это были вы. Ссылка " ++
    "действует 1 час. Если это были не вы, проигнорируйте письмо: " ++
    "пароль останется прежним, и старая ссылка перестанет работать " ++
    "после первого сброса.",
    .append (.append (.append (.append (.of_chars rfl) (.of_chars rfl)) (.of_chars rfl))
      (.of_chars rfl)) (.of_chars rfl)⟩

def passwordChangedText : PlainText :=
  ⟨"Пароль для этой учётной записи только что был успешно " ++
    "сброшен. Если это были не вы - напишите нам немедленно: " ++
    "кто-то получил доступ к вашему email-ящику и сменил пароль, " ++
    "нужно отозвать сессии и проверить активность.",
    .append (.append (.append (.of_chars rfl) (.of_chars rfl)) (.of_chars rfl)) (.of_chars rfl)⟩

def verificationText : PlainText :=
  ⟨"Чтобы делать ставки и выставлять лоты на Лотус, подтвердите " ++
    "этот email. Ссылка действует 24 часа - после истечения " ++
    "запросите новую в настройках профиля.",
    .append (.append (.of_chars rfl) (.of_chars rfl)) (.of_chars rfl)⟩

/-- `build_password_reset_email_html`. -/
def buildPasswordResetEmailHtml (username resetLink : String) : Html :=
  renderEmail brandAccent ⟨"Сброс пароля", .of_chars rfl⟩
    [.plain ⟨"Сброс пароля для ", .of_chars rfl⟩, .escaped username]
    [.plain ⟨"Привет, ", .of_chars rfl⟩, .escaped username, .plain passwordResetText]
    [] (button [.escaped resetLink] ⟨"Сбросить пароль →", .of_chars rfl⟩) S.publicBaseUrl S.year

/-- `build_password_changed_email_html`. -/
def buildPasswordChangedEmailHtml (username : String) : Html :=
  renderEmail ⟨"#22c55e", .of_chars rfl⟩ ⟨"Пароль изменён", .of_chars rfl⟩
    [.plain ⟨"Пароль изменён, ", .of_chars rfl⟩, .escaped username]
    [.plain passwordChangedText]
    [] (button [.escaped S.publicBaseUrl, .plain ⟨"/index.html", .of_chars rfl⟩]
      ⟨"Войти в Лотус →", .of_chars rfl⟩) S.publicBaseUrl S.year

/-- `build_verification_email_html`. -/
def buildVerificationEmailHtml (username verifyLink : String) : Html :=
  renderEmail brandAccent ⟨"Подтверждение email", .of_chars rfl⟩
    [.plain ⟨"Здравствуйте, ", .of_chars rfl⟩, .escaped username, .plain ⟨"!", .of_chars rfl⟩]
    [.plain verificationText]
    [] (button [.escaped verifyLink] ⟨"Подтвердить email →", .of_chars rfl⟩) S.publicBaseUrl S.year

/-- What the builders are called with. -/
inductive EmailBody where
  | notification (type : NotificationType) (title message : String) (auctionId : Option LotId)
      (auctionTitle : Option String)
  | passwordReset (username resetLink : String)
  | passwordChanged (username : String)
  | verification (username verifyLink : String)

def EmailBody.html : EmailBody → Html
  | .notification type title message auctionId auctionTitle =>
      buildNotificationEmailHtml S type title message auctionId auctionTitle
  | .passwordReset username resetLink => buildPasswordResetEmailHtml S username resetLink
  | .passwordChanged username => buildPasswordChangedEmailHtml S username
  | .verification username verifyLink => buildVerificationEmailHtml S username verifyLink

namespace EmailBody

def texts : EmailBody → List String
  | .notification _ title message _ _ => [title, message]
  | .passwordReset username _ =>
      ["Сброс пароля для " ++ username, "Привет, " ++ username ++ passwordResetText]
  | .passwordChanged username => ["Пароль изменён, " ++ username, passwordChangedText]
  | .verification username _ => ["Здравствуйте, " ++ username ++ "!", verificationText]

def card : EmailBody → Option String
  | .notification _ _ _ _ auctionTitle => auctionTitle.filter (· ≠ "")
  | .passwordReset .. | .passwordChanged _ | .verification .. => none

def link : EmailBody → Option String
  | .notification _ _ _ auctionId _ =>
      (auctionId.filter (0 < ·)).map fun id => S.publicBaseUrl ++ "/auction.html?id=" ++ toString id
  | .passwordReset _ resetLink => some resetLink
  | .passwordChanged _ => some (S.publicBaseUrl ++ "/index.html")
  | .verification _ verifyLink => some verifyLink

/-- Whether there is a card, and a button. -/
def form (body : EmailBody) : Bool × Bool := (body.card.isSome, (body.link S).isSome)

end EmailBody

section Page

set_option maxRecDepth 4096 in
theorem takes_emailStyle (accentColor typeLabel : PlainText) :
    (emailStyle accentColor typeLabel).Takes .text .value := by
  simp only [emailStyle]
  repeat refine .literal rfl (.plain rfl ?_)
  exact .nil _

set_option maxRecDepth 4096 in
theorem takes_emailFooter (baseUrl : String) (year : Nat) :
    (emailFooter baseUrl year).Takes .text .text := by
  unfold emailFooter
  repeat
    first
    | refine .literal rfl ?_
    | refine .plain rfl ?_
    | refine .escaped rfl ?_
  exact .nil _

/-- A button fits between texts when its link is made of fields. -/
theorem takes_button {link : Html} (h : link.Fields) (label : PlainText) :
    (button link label).Takes .text .text :=
  .literal rfl ((Html.Takes.fields h rfl).append (.literal rfl (.plain rfl (.literal rfl (.nil _)))))

set_option maxRecDepth 2048 in
/-- The card of a lot fits between texts, whatever its title. -/
theorem takes_auctionCard (auctionTitle : String) : (auctionCard auctionTitle).Takes .text .text :=
  .literal rfl (.escaped rfl (.literal rfl (.nil _)))

set_option maxRecDepth 2048 in
/-- The title comes right after a tag. -/
theorem opens_title : Opens titleOpen .value .text '>' := .of_chars rfl rfl

set_option maxRecDepth 2048 in
theorem closes_title : Closes titleClose .text '<' := .of_chars rfl

/-- The message comes right after a tag. -/
theorem opens_message : Opens messageOpen .value .text '>' := .of_chars rfl rfl

theorem closes_message : Closes messageClose .text '<' := .of_chars rfl

set_option maxRecDepth 2048 in
theorem opens_card : Opens cardOpen .text .text '>' := .of_chars rfl rfl

theorem closes_card : Closes cardClose .text '<' := .of_chars rfl

/-- The link of the button comes right after a quote. -/
theorem opens_button : Opens buttonOpen .text .value '"' := .of_chars rfl rfl

theorem closes_button : Closes buttonClose .value '"' := .of_chars rfl

variable (accentColor typeLabel : PlainText) {title message : Html} (hTitle : title.Fields)
  (hMessage : message.Fields)

include hTitle

set_option maxRecDepth 2048 in
/-- The page up to its heading. -/
theorem takes_heading :
    Html.Takes (.literal emailHead :: (title ++ emailStyle accentColor typeLabel)) .text .value :=
  .literal rfl ((Html.Takes.fields hTitle rfl).append (takes_emailStyle accentColor typeLabel))

set_option maxRecDepth 2048 in
/-- The page up to its message. -/
theorem takes_message : Html.Takes (.literal emailHead :: (title ++ emailStyle accentColor typeLabel) ++
    .literal titleOpen :: (title ++ [.literal titleClose, .plain brandMuted])) .text .value := by
  apply (takes_heading accentColor typeLabel hTitle).append
  refine .literal rfl ((Html.Takes.fields hTitle rfl).append ?_)
  exact .literal rfl (.plain rfl (.nil _))

include hMessage

set_option maxRecDepth 2048 in
/-- The page up to its card. -/
theorem takes_card : Html.Takes (.literal emailHead :: (title ++ emailStyle accentColor typeLabel) ++
    .literal titleOpen :: (title ++ [.literal titleClose, .plain brandMuted]) ++
      .literal messageOpen :: (message ++ [.literal messageClose])) .text .text := by
  apply (takes_message accentColor typeLabel hTitle).append
  refine .literal rfl ((Html.Takes.fields hMessage rfl).append ?_)
  exact .literal rfl (.nil _)

variable {card cta : Html} (baseUrl : String) (year : Nat)

/-- The whole letter is complete markup: it starts and ends in a text. -/
theorem takes_renderEmail (hCard : card.Takes .text .text) (hCta : cta.Takes .text .text) :
    (renderEmail accentColor typeLabel title message card cta baseUrl year).Takes .text .text := by
  have hGap : Html.Takes [.literal emailGap] .text .text := .literal rfl (.nil _)
  have hPage := (takes_card accentColor typeLabel hTitle hMessage).append (hCard.append
    (hGap.append (hCta.append (takes_emailFooter baseUrl year))))
  simpa [renderEmail] using hPage

omit hMessage in
/-- The letter shows the title between two tags. -/
theorem encloses_title : Encloses
    ((renderEmail accentColor typeLabel title message card cta baseUrl year).tokens .text)
      '>' '<' title.shown := by
  have hPage := encloses opens_title closes_title rfl (takes_heading accentColor typeLabel hTitle) hTitle
    (.plain brandMuted :: .literal messageOpen :: (message ++ .literal messageClose ::
      (card ++ .literal emailGap :: (cta ++ emailFooter baseUrl year))))
  simpa [renderEmail] using hPage

/-- The letter shows the message between two tags. -/
theorem encloses_message : Encloses
    ((renderEmail accentColor typeLabel title message card cta baseUrl year).tokens .text)
      '>' '<' message.shown := by
  have hPage := encloses opens_message closes_message rfl (takes_message accentColor typeLabel hTitle)
    hMessage (card ++ .literal emailGap :: (cta ++ emailFooter baseUrl year))
  simpa [renderEmail] using hPage

/-- The letter shows the title of the lot between two tags. -/
theorem encloses_card (auctionTitle : String) : Encloses
    ((renderEmail accentColor typeLabel title message (auctionCard auctionTitle) cta baseUrl
      year).tokens .text) '>' '<' auctionTitle.toList := by
  have hField : Html.Fields [.escaped auctionTitle] := rfl
  have hPage := encloses opens_card closes_card rfl (takes_card accentColor typeLabel hTitle hMessage)
    hField (.literal emailGap :: (cta ++ emailFooter baseUrl year))
  simpa [renderEmail, auctionCard, Html.shown] using hPage

/-- The letter has the link between two quotes. -/
theorem encloses_link (hCard : card.Takes .text .text) {link : Html} (hLink : link.Fields)
    (label : PlainText) : Encloses
    ((renderEmail accentColor typeLabel title message card (button link label) baseUrl
      year).tokens .text) '"' '"' link.shown := by
  have hGap : Html.Takes [.literal emailGap] .text .text := .literal rfl (.nil _)
  have hPage := encloses opens_button closes_button rfl
    ((takes_card accentColor typeLabel hTitle hMessage).append (hCard.append hGap)) hLink
    (.plain label :: .literal "</a>" :: emailFooter baseUrl year)
  simpa [renderEmail, button] using hPage

end Page

/-- What is read of a page: these texts between tags, and this link in a tag. -/
structure Shows (page : Html) (texts : List String) (card link : Option String) : Prop where
  takes : page.Takes .text .text
  texts : ∀ text ∈ texts, Encloses (page.tokens .text) '>' '<' text.toList
  card : ∀ text ∈ card, Encloses (page.tokens .text) '>' '<' text.toList
  link : ∀ text ∈ link, Encloses (page.tokens .text) '"' '"' text.toList

def cardHtml (card : Option String) : Html := card.elim [] auctionCard

def ctaHtml (cta : Option (Html × PlainText)) : Html := cta.elim [] fun (link, label) => button link label

/-- The card fits between texts, shown or not. -/
theorem takes_cardHtml (card : Option String) : (cardHtml card).Takes .text .text := by
  cases card with
  | none => exact .nil _
  | some auctionTitle => exact takes_auctionCard auctionTitle

theorem takes_ctaHtml {cta : Option (Html × PlainText)} (h : ∀ entry ∈ cta, entry.1.Fields) :
    (ctaHtml cta).Takes .text .text := by
  cases cta with
  | none => exact .nil _
  | some entry => exact takes_button (h entry rfl) entry.2

section

variable (accentColor typeLabel : PlainText) {title message : Html} (hTitle : title.Fields)
  (hMessage : message.Fields) (card : Option String) {cta : Option (Html × PlainText)}
  (hCta : ∀ entry ∈ cta, entry.1.Fields) (baseUrl : String) (year : Nat)

include hTitle hMessage hCta

/-- The letter shows every text and link that it was given. -/
theorem shows_renderEmail {texts : List String} {link : Option String}
    (hTexts : texts.map String.toList = [title.shown, message.shown])
    (hLink : link.map String.toList = cta.map fun entry => entry.1.shown) :
    Shows (renderEmail accentColor typeLabel title message (cardHtml card) (ctaHtml cta) baseUrl year)
      texts card link := by
  constructor
  case takes =>
    exact takes_renderEmail accentColor typeLabel hTitle hMessage baseUrl year (takes_cardHtml card)
      (takes_ctaHtml hCta)
  case texts =>
    intro text hMem
    have hShown : text.toList ∈ [title.shown, message.shown] :=
      hTexts ▸ List.mem_map_of_mem hMem
    simp only [List.mem_cons, List.not_mem_nil, or_false] at hShown
    rcases hShown with hText | hText
    · rw [hText]
      exact encloses_title accentColor typeLabel hTitle baseUrl year
    · rw [hText]
      exact encloses_message accentColor typeLabel hTitle hMessage baseUrl year
  case card =>
    rintro text rfl
    exact encloses_card accentColor typeLabel hTitle hMessage baseUrl year text
  case link =>
    rintro text rfl
    cases cta with
    | none => cases hLink
    | some entry =>
        rw [Option.some.inj hLink]
        exact encloses_link accentColor typeLabel hTitle hMessage baseUrl year (takes_cardHtml card)
          (hCta entry rfl) entry.2

end

/-- The literals of a page with or without a card, and a button. -/
def emailLiterals (form : Bool × Bool) : List String :=
  (renderEmail brandAccent brandAccent [] [] (if form.1 then auctionCard "" else [])
    (if form.2 then button [] brandAccent else []) "" 0).literals

theorem literals_cardHtml (card : Option String) :
    (cardHtml card).literals = (if card.isSome then auctionCard "" else []).literals := by
  cases card <;> rfl

theorem literals_ctaHtml {cta : Option (Html × PlainText)} (h : ∀ entry ∈ cta, entry.1.Fields) :
    (ctaHtml cta).literals = (if cta.isSome then button [] brandAccent else []).literals := by
  cases cta with
  | none => rfl
  | some entry =>
      have hButton : (button entry.1 entry.2).literals = buttonOpen :: (entry.1.literals ++
        [buttonClose, "</a>"]) := congrArg (buttonOpen :: ·) (Html.literals_append _ _)
      rw [ctaHtml, Option.elim_some, hButton, h entry rfl]
      rfl

/-- The fixed markup of the letter depends on which of its two optional parts
it has alone. -/
theorem literals_renderEmail (accentColor typeLabel : PlainText) {title message : Html}
    (hTitle : title.Fields) (hMessage : message.Fields) (card : Option String)
    {cta : Option (Html × PlainText)} (hCta : ∀ entry ∈ cta, entry.1.Fields) (baseUrl : String)
    (year : Nat) : (renderEmail accentColor typeLabel title message (cardHtml card) (ctaHtml cta) baseUrl
      year).literals = emailLiterals (card.isSome, cta.isSome) := by
  have hPage (accentColor typeLabel : PlainText) (title message card cta : Html) (baseUrl : String)
      (year : Nat) : (renderEmail accentColor typeLabel title message card cta baseUrl year).literals =
        emailHead :: (title.literals ++ ((emailStyle brandAccent brandAccent).literals ++
          titleOpen :: (title.literals ++ titleClose :: messageOpen :: (message.literals ++
            messageClose :: (card.literals ++ emailGap :: (cta.literals ++
              (emailFooter "" 0).literals)))))) := by
    have hStyle : (emailStyle accentColor typeLabel).literals =
        (emailStyle brandAccent brandAccent).literals := rfl
    have hFooter : (emailFooter baseUrl year).literals = (emailFooter "" 0).literals := rfl
    simp only [renderEmail, Html.literals_append, Html.literals_literal, Html.literals_plain, hStyle,
      hFooter]
  rw [emailLiterals, hPage, hPage, hTitle, hMessage, literals_cardHtml, literals_ctaHtml hCta]
  rfl

/-- An empty title shows no card. -/
theorem bodyCard_eq (auctionTitle : Option String) :
    bodyCard auctionTitle = cardHtml (auctionTitle.filter (· ≠ "")) := by
  cases auctionTitle with
  | none => rfl
  | some auctionTitle => by_cases hEmpty : auctionTitle = "" <;> simp [bodyCard, cardHtml, Option.filter, hEmpty]

/-- Every body is a page of that kind. -/
theorem exists_renderEmail (body : EmailBody) :
    ∃ (accentColor typeLabel : PlainText) (title message : Html) (cta : Option (Html × PlainText)),
      body.html S = renderEmail accentColor typeLabel title message (cardHtml body.card) (ctaHtml cta)
        S.publicBaseUrl S.year ∧
      title.Fields ∧ message.Fields ∧ (∀ entry ∈ cta, entry.1.Fields) ∧
      body.texts.map String.toList = [title.shown, message.shown] ∧
      (body.link S).map String.toList = cta.map fun entry => entry.1.shown := by
  cases body with
  | notification type title message auctionId auctionTitle =>
      obtain ⟨cta, hCta, hFields, hLink⟩ : ∃ cta, auctionLink S auctionId = ctaHtml cta ∧
          (∀ entry ∈ cta, entry.1.Fields) ∧
          (EmailBody.link S (.notification type title message auctionId auctionTitle)).map
            String.toList = cta.map fun entry => entry.1.shown := by
        rcases auctionId with _ | _ | id
        · exact ⟨none, rfl, nofun, rfl⟩
        · exact ⟨none, rfl, nofun, rfl⟩
        · refine ⟨some (_, _), rfl, ?_, ?_⟩
          · rintro entry ⟨⟩
            rfl
          · simp [EmailBody.link, Html.shown, decimal]
      refine ⟨(typePresentation type).2, (typePresentation type).1, [.escaped title],
        [.escaped message], cta, ?_, rfl, rfl, hFields, ?_, hLink⟩
      · rw [EmailBody.html, buildNotificationEmailHtml, bodyCard_eq, hCta]
        rfl
      · simp [EmailBody.texts, Html.shown]
  | passwordReset username resetLink =>
      refine ⟨_, _, _, _, some (_, _), rfl, rfl, rfl, ?_, ?_, ?_⟩
      · rintro entry ⟨⟩
        rfl
      · simp [EmailBody.texts, Html.shown]
      · simp [EmailBody.link, Html.shown]
  | passwordChanged username =>
      refine ⟨_, _, _, _, some (_, _), rfl, rfl, rfl, ?_, ?_, ?_⟩
      · rintro entry ⟨⟩
        rfl
      · simp [EmailBody.texts, Html.shown]
      · simp [EmailBody.link, Html.shown]
  | verification username verifyLink =>
      refine ⟨_, _, _, _, some (_, _), rfl, rfl, rfl, ?_, ?_, ?_⟩
      · rintro entry ⟨⟩
        rfl
      · simp [EmailBody.texts, Html.shown]
      · simp [EmailBody.link, Html.shown]

/-- Each text stands whole between tags and each link whole in its attribute, and no text
or link changes the markup: two bodies of one form have the same. -/
theorem email_shows_what_it_was_given (body : EmailBody) :
    ∃ tokens, (Reader.mk .text none).read (body.html S).chars = (⟨.text, none⟩, tokens) ∧
      (∀ text ∈ body.texts ++ body.card.toList, Encloses tokens '>' '<' text.toList) ∧
      (∀ link ∈ body.link S, Encloses tokens '"' '"' link.toList) ∧
      ∀ (S' : MailSettings) (body' : EmailBody), body'.form S' = body.form S →
        ((Reader.mk .text none).read (body'.html S').chars).2.filter Token.isMarkup =
          tokens.filter Token.isMarkup := by
  have hMarkup (S : MailSettings) (body : EmailBody) :
      ((body.html S).tokens .text).filter Token.isMarkup =
        markup .text (emailLiterals (body.form S)) := by
    obtain ⟨_, _, _, _, cta, hHtml, hTitle, hMessage, hCta, _, hLink⟩ := exists_renderEmail S body
    have hSome : (body.link S).isSome = cta.isSome := by
      simpa using congrArg Option.isSome hLink
    rw [Html.markup_tokens, hHtml, literals_renderEmail _ _ hTitle hMessage _ hCta, ← hSome]
    rfl
  have hShows (S : MailSettings) (body : EmailBody) :
      Shows (body.html S) body.texts body.card (body.link S) := by
    obtain ⟨_, _, _, _, cta, hHtml, hTitle, hMessage, hCta, hTexts, hLink⟩ :=
      exists_renderEmail S body
    rw [hHtml]
    exact shows_renderEmail _ _ hTitle hMessage _ hCta _ _ hTexts hLink
  refine ⟨_, (hShows S body).takes.read, ?_, (hShows S body).link, ?_⟩
  · intro text hMem
    rcases List.mem_append.mp hMem with hText | hText
    · exact (hShows S body).texts text hText
    · exact (hShows S body).card text (Option.mem_toList.mp hText)
  · intro S' body' hForm
    rw [(hShows S' body').takes.read, hMarkup, hMarkup, hForm]

end OnlineAuction.Notifications
