import DrBoz.AccountPage
import DrBoz.AccountSkills
import DrBoz.ActiveSubscriptions
import DrBoz.AlbumBatches
import DrBoz.AutoRouting
import DrBoz.BasicPdf
import DrBoz.BlockedUsers
import DrBoz.Calculator
import DrBoz.ChatTurns
import DrBoz.CodexAnswers
import DrBoz.CodexFiles
import DrBoz.CodexMessages
import DrBoz.CodexStream
import DrBoz.DenialReasons
import DrBoz.GroupPrecheck
import DrBoz.GroupTriggers
import DrBoz.HttpTools
import DrBoz.Idempotence
import DrBoz.ImageLabels
import DrBoz.JsonToolRequests
import DrBoz.LatexBody
import DrBoz.LinkAttempts
import DrBoz.LoginCodes
import DrBoz.LostUpdates
import DrBoz.MiniAppLogin
import DrBoz.PaymentOrders
import DrBoz.PdfExport
import DrBoz.PdfNames
import DrBoz.PendingActions
import DrBoz.ProjectCopies
import DrBoz.PromoErrors
import DrBoz.PromoLimits
import DrBoz.PromoLinks
import DrBoz.PromptPlaceholders
import DrBoz.ProviderErrors
import DrBoz.PythonFiles
import DrBoz.RagChunks
import DrBoz.RagIndexing
import DrBoz.Receipts
import DrBoz.ReferralLinks
import DrBoz.SpreadsheetRows
import DrBoz.StarterCredits
import DrBoz.StreamRetries
import DrBoz.TelegramTexts
import DrBoz.TextChunks
import DrBoz.TieredWindows
import DrBoz.TomanCounters
import DrBoz.ToolCalls
import DrBoz.ToolPaths
import DrBoz.ToolTranscripts
import DrBoz.TopupQuotes
import DrBoz.TransactionsBot
import DrBoz.UpdateClaims
import DrBoz.UsageMetadata
import DrBoz.UsageReaders
import DrBoz.UsageReport
import DrBoz.UserCredits
import DrBoz.UserRoutes
